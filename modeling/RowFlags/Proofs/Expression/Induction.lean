import RowFlags.Program.Compile
import RowFlags.Proofs.Outcome

/-!
# Induction over compiled code

Compiling puts the code of a tree together from the code of its parts. What every way of doing so
keeps is a law of code (`CodeLaw`), and it holds of all that compiles (`CodeLaw.of_compile`). What
code does on a stack, how much it leaves there and what it asks for are such laws. Each is proved by
the ways of putting code together, without opening the compiler.
-/

set_option autoImplicit false

namespace RowFlags.Expr

/-- `P` of an expression and its code, and `Q` of expressions and the code of all of them, are kept
by every way in which compiling puts code together. -/
structure CodeLaw (P : Expr → List Instruction → Prop) (Q : List Expr → List Instruction → Prop) :
    Prop where
  column (c : Column) : P (.column c) [.load c]
  literal (v : Value) : P (.literal v) [.push v]
  null : P .null [.push .null]
  /-- A group of constants is folded into one, -/
  folded {items : List Expr} {values : List Value} (h : items.mapM literal? = some values) :
    P (.group items) [.push (.list values)]
  /-- every other group comes before its operator. -/
  group {items : List Expr} {code : List Instruction} {op : Operator}
    (h : items.mapM literal? = none) (hop : Operator.make (.variadic .group) items.length = .ok op)
    (hitems : Q items code) : P (.group items) (code ++ [.operate op])
  unary {op : UnaryOp} {operand : Expr} {code : List Instruction} (hoperand : P operand code) :
    P (.unary op operand) (code ++ [.operate (.unary (functionOfUnary op))])
  binary {op : BinaryOp} {left right : Expr} {f : BinaryFunction}
    {leftCode rightCode : List Instruction} (hf : functionOf op = .ok f)
    (hright : P right rightCode) (hleft : P left leftCode) :
    P (.binary op left right) (rightCode ++ leftCode ++ [.operate (.binary f)])
  test (c : Column) (t : TruthTest) : P (.test c t) (.load c :: testCode t)
  /-- No clauses are always true. -/
  noClauses (op : Conjunction) : P (.clauses op []) [.push (.boolean true)]
  clauses {op : Conjunction} {item : Expr} {rest : List Expr} {code : List Instruction}
    {operator : Operator} (hop : clauseOperator op (item :: rest).length = .ok operator)
    (hitems : Q (item :: rest) code) :
    P (.clauses op (item :: rest)) (code ++ [.operate operator])
  nil : Q [] []
  cons {item : Expr} {rest : List Expr} {front back : List Instruction} (hitem : P item front)
    (hrest : Q rest back) : Q (item :: rest) (front ++ back)

namespace CodeLaw

variable {P : Expr → List Instruction → Prop} {Q : List Expr → List Instruction → Prop}

mutual

/-- A law of code holds of all that compiles. -/
theorem of_compile (law : CodeLaw P Q) : (e : Expr) → (code : List Instruction) →
    e.compile = .ok code → P e code
  | .column c, _, h => by
    cases h
    exact law.column c
  | .literal v, _, h => by
    cases h
    exact law.literal v
  | .null, _, h => by
    cases h
    exact law.null
  | .group items, code, h => by
    unfold compile at h
    split at h
    · next values hvalues =>
      cases h
      exact law.folded hvalues
    · next hvalues =>
      obtain ⟨itemsCode, hitems, h⟩ := Outcome.bind_eq_ok_iff.1 h
      obtain ⟨op, hop, hcode⟩ := Outcome.bind_eq_ok_iff.1 h
      cases hcode
      exact law.group hvalues hop (of_compileAll law items itemsCode hitems)
  | .unary op operand, code, h => by
    unfold compile at h
    obtain ⟨operandCode, hoperand, hcode⟩ := Outcome.bind_eq_ok_iff.1 h
    cases hcode
    exact law.unary (of_compile law operand operandCode hoperand)
  | .binary op left right, code, h => by
    unfold compile at h
    obtain ⟨f, hf, h⟩ := Outcome.bind_eq_ok_iff.1 h
    obtain ⟨rightCode, hright, h⟩ := Outcome.bind_eq_ok_iff.1 h
    obtain ⟨leftCode, hleft, hcode⟩ := Outcome.bind_eq_ok_iff.1 h
    cases hcode
    exact law.binary hf (of_compile law right rightCode hright)
      (of_compile law left leftCode hleft)
  | .test c t, _, h => by
    cases h
    exact law.test c t
  | .clauses op [], _, h => by
    cases h
    exact law.noClauses op
  | .clauses op (item :: rest), code, h => by
    unfold compile at h
    obtain ⟨itemsCode, hitems, h⟩ := Outcome.bind_eq_ok_iff.1 h
    obtain ⟨operator, hop, hcode⟩ := Outcome.bind_eq_ok_iff.1 h
    cases hcode
    exact law.clauses hop (of_compileAll law (item :: rest) itemsCode hitems)
  | .call _ _, _, h => by cases h

theorem of_compileAll (law : CodeLaw P Q) : (items : List Expr) → (code : List Instruction) →
    compileAll items = .ok code → Q items code
  | [], _, h => by
    cases h
    exact law.nil
  | item :: rest, code, h => by
    unfold compileAll at h
    obtain ⟨front, hfront, h⟩ := Outcome.bind_eq_ok_iff.1 h
    obtain ⟨back, hback, hcode⟩ := Outcome.bind_eq_ok_iff.1 h
    cases hcode
    exact law.cons (of_compile law item front hfront) (of_compileAll law rest back hback)

end

end CodeLaw

end RowFlags.Expr
