import RowFlags.Program.Run
import RowFlags.Proofs.Outcome

/-!
# Expressions on other columns

Putting other columns in the place of an expression's own changes the columns that its program loads
and nothing else (`both_compile_rename`): what does not compile fails alike, but for the wording of
calls, which shows columns by name. The renamed program computes what the program computes, if each
column has the value of the one that it stands for (`run_rename`).
-/

set_option autoImplicit false

namespace RowFlags

open Outcome (Both)

/-- Failures that differ at most in how a call is shown. -/
inductive EvalError.Alike : EvalError → EvalError → Prop
  | same (e : EvalError) : Alike e e
  | call (sql sql' : String) : Alike (.unsupportedCall sql) (.unsupportedCall sql')

/-- The instruction with another column to load. -/
def Instruction.rename (f : Column → Column) : Instruction → Instruction
  | .load c => .load (f c)
  | .push v => .push v
  | .operate op => .operate op

namespace Expr

variable (f : Column → Column)

mutual

/-- The expression with other columns in the place of its own. -/
def rename : Expr → Expr
  | .column c => .column (f c)
  | .literal v => .literal v
  | .null => .null
  | .group items => .group (renameAll items)
  | .unary op operand => .unary op (rename operand)
  | .binary op left right => .binary op (rename left) (rename right)
  | .test c t => .test (f c) t
  | .clauses op items => .clauses op (renameAll items)
  | .call function arguments => .call function (renameAll arguments)

/-- The expressions with other columns in the place of their own. -/
def renameAll : List Expr → List Expr
  | [] => []
  | item :: rest => rename item :: renameAll rest

end

@[simp] theorem length_renameAll (items : List Expr) :
    (renameAll f items).length = items.length := by
  induction items with
  | nil => rfl
  | cons item rest ih => rw [renameAll, List.length_cons, ih, List.length_cons]

theorem literal?_rename (e : Expr) : (e.rename f).literal? = e.literal? := by
  cases e <;> rfl

theorem mapM_literal?_renameAll (items : List Expr) :
    (renameAll f items).mapM literal? = items.mapM literal? := by
  induction items with
  | nil => rfl
  | cons item rest ih => simp [renameAll, literal?_rename, ih]

/-- The code with other columns to load. -/
def Renamed (code renamed : List Instruction) : Prop := renamed = code.map (Instruction.rename f)

theorem Renamed.append {f : Column → Column} {front front' back back' : List Instruction}
    (hfront : Renamed f front front') (hback : Renamed f back back') :
    Renamed f (front ++ back) (front' ++ back') := by
  rw [hfront, hback]
  exact List.map_append.symm

mutual

theorem both_compile_rename : (e : Expr) →
    Both EvalError.Alike (Renamed f) e.compile (e.rename f).compile
  | .column c => .ok rfl
  | .literal v => .ok rfl
  | .null => .ok rfl
  | .group items => by
    rw [rename, compile, compile, mapM_literal?_renameAll, length_renameAll]
    split
    · exact .ok rfl
    · refine (both_compileAll_renameAll items).bind fun code renamed hcode => ?_
      refine Both.bind_same .same _ fun op => ?_
      exact .ok (hcode.append rfl)
  | .unary op operand =>
    (both_compile_rename operand).bind fun _ _ hcode => .ok (hcode.append rfl)
  | .binary op left right => by
    rw [rename, compile, compile]
    refine Both.bind_same .same (functionOf op) fun function => ?_
    refine (both_compile_rename right).bind fun _ _ hright => ?_
    refine (both_compile_rename left).bind fun _ _ hleft => ?_
    exact .ok ((hright.append hleft).append rfl)
  | .test c t => by cases t <;> exact .ok rfl
  | .clauses op [] => .ok rfl
  | .clauses op (item :: rest) => by
    have hitems := both_compileAll_renameAll (item :: rest)
    rw [rename, renameAll, compile, compile, ← renameAll, length_renameAll]
    · refine hitems.bind fun code renamed hcode => ?_
      refine Both.bind_same .same _ fun op => ?_
      exact .ok (hcode.append rfl)
    · simp
    · simp
  | .call function arguments => .error (.call _ _)

theorem both_compileAll_renameAll : (items : List Expr) →
    Both EvalError.Alike (Renamed f) (compileAll items) (compileAll (renameAll f items))
  | [] => .ok rfl
  | item :: rest =>
    (both_compile_rename item).bind fun _ _ hfront =>
      (both_compileAll_renameAll rest).bind fun _ _ hback => .ok (hfront.append hback)

end

end Expr

namespace Program

/-- Renamed code computes the same, if each column has the value of the one it stands for. -/
theorem run_rename {m : Type → Type} [Monad m] {ε : Type} (raise : EvalError → ε)
    {lookup lookup' : Column → ExceptT ε m Value} {f : Column → Column} {code : List Instruction}
    (h : ∀ c, .load c ∈ code → lookup' (f c) = lookup c) (stack : List Value) :
    run raise lookup' (code.map (Instruction.rename f)) stack = run raise lookup code stack := by
  induction code generalizing stack with
  | nil => rfl
  | cons i code ih =>
    have hrest := ih fun c hc => h c (List.mem_cons_of_mem _ hc)
    cases i with
    | load c =>
      simp only [List.map_cons, Instruction.rename, run, h c List.mem_cons_self, hrest]
    | push v => exact hrest (v :: stack)
    | operate op =>
      simp only [List.map_cons, Instruction.rename, run, hrest]

end Program

end RowFlags
