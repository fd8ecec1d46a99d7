import RowFlags.Proofs.Expression.Induction

/-!
# What compiled expressions tell apart

A compiled expression is a flat sequence: no instruction says where an operand ends. It determines
its tree all the same, up to the few ways of writing one thing that the compiler does not keep
apart. `Expr.elaborate` makes these one and nothing else. Read by a stack of trees, as the code of
an expression is run by a stack of values, the code gives the elaborated tree back (`read_compile`);
and the elaborated tree says what the code is (`keys_compile`). So two programs are the same exactly
if their trees elaborate alike (`same_iff_elaborate_eq`).
-/

set_option autoImplicit false

namespace RowFlags

/-- An expression as a tree of operators over constants and columns, which are known by their
identity. -/
inductive OperatorTree where
  | column (identity : TableId × Nat)
  | constant (v : Value)
  | group (items : List OperatorTree)
  | unary (op : UnaryOp) (operand : OperatorTree)
  | binary (op : BinaryOp) (left right : OperatorTree)
  | test (column : TableId × Nat) (t : TruthTest)
  | clauses (op : Conjunction) (items : List OperatorTree)
  | call (function : String) (arguments : List OperatorTree)

/-- The operator, or equality in place of its name for tests of NULL. -/
def BinaryOp.plain : BinaryOp → BinaryOp
  | .is => .eq
  | .isNot => .ne
  | op => op

namespace Expr

mutual

/-- The tree of an expression, in which NULL is a constant, a column the test that it is true, the
tests `is` and `isNot` are equality and inequality, a group of constants is the constant list of
their values, and no clauses are the constant true. -/
def elaborate : Expr → OperatorTree
  | .column c => .column c.identity
  | .literal v => .constant v
  | .null => .constant .null
  | .group items =>
    match items.mapM literal? with
    | some values => .constant (.list values)
    | none => .group (elaborateAll items)
  | .unary op operand => .unary op operand.elaborate
  | .binary op left right => .binary op.plain left.elaborate right.elaborate
  | .test c t => if t = .isTrue then .column c.identity else .test c.identity t
  | .clauses _ [] => .constant (.boolean true)
  | .clauses op items => .clauses op (elaborateAll items)
  | .call function arguments => .call function (elaborateAll arguments)

/-- The trees of expressions. -/
def elaborateAll : List Expr → List OperatorTree
  | [] => []
  | item :: rest => item.elaborate :: elaborateAll rest

end

@[simp] theorem length_elaborateAll (items : List Expr) :
    (elaborateAll items).length = items.length := by
  induction items with
  | nil => rfl
  | cons item rest ih => simp [elaborateAll, ih]

end Expr

/-! ## Reading code back -/

namespace OperatorTree

/-- The tree of a function on the trees of its operands, the left one being the last clause. -/
def ofBinary (f : BinaryFunction) (left right : OperatorTree) : OperatorTree :=
  match f with
  | .arithmetic op => .binary (.arithmetic op) left right
  | .eq => .binary .eq left right
  | .ne => .binary .ne left right
  | .compare relation => .binary (.compare relation) left right
  | .logic op => .clauses op [right, left]
  | .member => .binary .member left right
  | .notMember => .binary .notMember left right
  | .contains => .binary .contains left right
  | .concat => .binary .concat left right

/-- The tree of a function on the trees of any number of operands. -/
def ofReducer : Reducer → List OperatorTree → OperatorTree
  | .all => .clauses .and
  | .any => .clauses .or
  | .group => .group

/-- The stack of trees after an instruction. One that finds no operands is passed over. -/
def step (stack : List OperatorTree) : Instruction.Key → List OperatorTree
  | .load c => .column c :: stack
  | .push v => .constant v :: stack
  | .operate op =>
    match op.function, stack with
    | .unary .isNull, .column c :: rest => .test c .isNull :: rest
    | .unary .isNotNull, .column c :: rest => .test c .isNotNull :: rest
    | .unary .not, .column c :: rest => .test c .isFalse :: rest
    | .unary .invert, operand :: rest => .unary .not operand :: rest
    | .unary .neg, operand :: rest => .unary .neg operand :: rest
    | .binary f, left :: right :: rest => ofBinary f left right :: rest
    | .variadic f, stack => ofReducer f (stack.take op.arity).reverse :: stack.drop op.arity
    | _, stack => stack

/-- The stack of trees after code. -/
def read (code : List Instruction) (stack : List OperatorTree) : List OperatorTree :=
  (code.map Instruction.key).foldl step stack

theorem read_append (front back : List Instruction) (stack : List OperatorTree) :
    read (front ++ back) stack = read back (read front stack) := by
  simp [read]

/-- An operator of any number of operands takes their trees off the stack, the deepest first. -/
theorem step_variadic {f : Reducer} {op : Operator} {trees : List OperatorTree}
    (stack : List OperatorTree) (hmake : Operator.make (.variadic f) trees.length = .ok op) :
    step (trees.reverse ++ stack) (.operate op) = ofReducer f trees :: stack := by
  unfold Operator.make at hmake
  split at hmake
  · cases hmake
    have hlength : trees.reverse.length = trees.length := List.length_reverse
    simp only [step]
    rw [← hlength, List.take_left, List.drop_left, List.reverse_reverse]
  · cases hmake

/-- The operator of a clause list puts the list's tree in place of the clauses'. -/
theorem step_clauseOperator {c : Conjunction} {op : Operator} {trees : List OperatorTree}
    (stack : List OperatorTree) (h : Expr.clauseOperator c trees.length = .ok op) :
    step (trees.reverse ++ stack) (.operate op) = .clauses c trees :: stack := by
  unfold Expr.clauseOperator at h
  split at h
  · next htwo =>
    cases h
    match trees, htwo with
    | [first, last], _ => rfl
  · rw [step_variadic stack h]
    cases c <;> rfl

/-- The tree of a function that computes an operator has the operator at its root. -/
theorem ofBinary_of_functionOf {op : BinaryOp} {f : BinaryFunction}
    (h : Expr.functionOf op = .ok f) (left right : OperatorTree) :
    ofBinary f left right = .binary op.plain left right := by
  cases op <;> cases h <;> rfl

theorem read_testCode (c : Column) (t : TruthTest) (stack : List OperatorTree) :
    read (.load c :: Expr.testCode t) stack = (Expr.test c t).elaborate :: stack := by
  cases t <;> rfl

end OperatorTree

namespace Expr

open OperatorTree (read read_append step_variadic step_clauseOperator ofBinary_of_functionOf
  read_testCode)

/-- The code of an expression, read on any stack of trees, leaves the expression's tree on top, and
that of several leaves all their trees, the last on top. -/
theorem codeLaw_read : CodeLaw
    (fun e code => ∀ stack, read code stack = e.elaborate :: stack)
    (fun items code => ∀ stack, read code stack = (elaborateAll items).reverse ++ stack) where
  column _ _ := rfl
  literal _ _ := rfl
  null _ := rfl
  folded hvalues stack := by
    simp only [elaborate, hvalues]
    rfl
  group hvalues hop hitems stack := by
    rw [← length_elaborateAll] at hop
    simp only [elaborate, hvalues]
    rw [read_append, hitems]
    exact step_variadic stack hop
  unary {op _ _} hoperand stack := by
    rw [read_append, hoperand]
    cases op <;> rfl
  binary {_ left right _ _ _} hf hright hleft stack := by
    rw [read_append, read_append, hright, hleft]
    exact congrArg (· :: stack) (ofBinary_of_functionOf hf left.elaborate right.elaborate)
  test c t stack := read_testCode c t stack
  noClauses _ _ := rfl
  clauses hop hitems stack := by
    rw [← length_elaborateAll] at hop
    rw [read_append, hitems]
    exact step_clauseOperator stack hop
  nil _ := rfl
  cons hitem hrest stack := by
    rw [read_append, hitem, hrest]
    simp [elaborateAll]

theorem read_compile {e : Expr} {code : List Instruction} (h : e.compile = .ok code)
    (stack : List OperatorTree) : read code stack = e.elaborate :: stack :=
  codeLaw_read.of_compile e code h stack

end Expr

/-! ## The code of a tree -/

namespace OperatorTree

/-- The instruction for an operator, if there is such an operator. -/
def operation (op : Except EvalError Operator) : List Instruction.Key :=
  match op with
  | .ok op => [.operate op]
  | .error _ => []

mutual

/-- The keys of the instructions that a tree's expressions are compiled to. -/
def code : OperatorTree → List Instruction.Key
  | .column c => [.load c]
  | .constant v => [.push v]
  | .group items => codeAll items ++ operation (Operator.make (.variadic .group) items.length)
  | .unary op operand => operand.code ++ [.operate (.unary (Expr.functionOfUnary op))]
  | .binary op left right =>
    right.code ++ left.code ++ operation (Operator.binary <$> Expr.functionOf op)
  | .test c t => .load c :: (Expr.testCode t).map Instruction.key
  | .clauses op items => codeAll items ++ operation (Expr.clauseOperator op items.length)
  | .call _ _ => []

/-- The keys of the instructions of trees one after the other. -/
def codeAll : List OperatorTree → List Instruction.Key
  | [] => []
  | item :: rest => item.code ++ codeAll rest

end

end OperatorTree

namespace Expr

open OperatorTree (operation)

/-- Equality is computed alike under both of its names. -/
theorem functionOf_plain (op : BinaryOp) : functionOf op.plain = functionOf op := by
  cases op <;> rfl

/-- What expressions compile to depends on their trees alone. -/
theorem codeLaw_keys : CodeLaw
    (fun e code => code.map Instruction.key = e.elaborate.code)
    (fun items code => code.map Instruction.key = OperatorTree.codeAll (elaborateAll items)) where
  column _ := rfl
  literal _ := rfl
  null := rfl
  folded hvalues := by
    simp only [elaborate, hvalues]
    rfl
  group hvalues hop hitems := by
    simp only [elaborate, hvalues]
    rw [OperatorTree.code, length_elaborateAll, hop, List.map_append, hitems]
    rfl
  unary hoperand := by
    rw [elaborate, OperatorTree.code, List.map_append, hoperand]
    rfl
  binary hf hright hleft := by
    rw [elaborate, OperatorTree.code, functionOf_plain, hf, List.map_append, List.map_append,
      hright, hleft]
    rfl
  test c t := by cases t <;> rfl
  noClauses _ := rfl
  clauses hop hitems := by
    rw [elaborate, OperatorTree.code, length_elaborateAll, hop, List.map_append, hitems]
    · rfl
    · rintro ⟨⟩
  nil := rfl
  cons hitem hrest := by
    rw [elaborateAll, OperatorTree.codeAll, List.map_append, hitem, hrest]

theorem keys_compile {e : Expr} {code : List Instruction} (h : e.compile = .ok code) :
    code.map Instruction.key = e.elaborate.code :=
  codeLaw_keys.of_compile e code h

end Expr

namespace Program

/-- Programs are the same exactly if the trees they come from elaborate alike. -/
theorem same_iff_elaborate_eq {e d : Expr} {p q : Program} (hp : ofExpr e = .ok p)
    (hq : ofExpr d = .ok q) : p.same q = true ↔ e.elaborate = d.elaborate := by
  obtain ⟨code, hcode, h⟩ := Outcome.bind_eq_ok_iff.1 hp
  cases h
  obtain ⟨other, hother, h⟩ := Outcome.bind_eq_ok_iff.1 hq
  cases h
  simp only [same, decide_eq_true_eq]
  constructor
  · intro hkeys
    -- reading looks at the keys only
    have hread : OperatorTree.read code [] = OperatorTree.read other [] := by
      unfold OperatorTree.read
      rw [hkeys]
    rw [Expr.read_compile hcode, Expr.read_compile hother] at hread
    exact (List.cons.inj hread).1
  · intro htrees
    rw [Expr.keys_compile hcode, Expr.keys_compile hother, htrees]

/-- A handle of the third column of a table. -/
def sampleHandle (name : String) : Column := ⟨⟨1⟩, 2, "t", name, .int32⟩

/-- A condition over one handle, with names for what has a plain form. -/
def sampleNamed : Expr :=
  .clauses .and
    [.binary .is (.column (sampleHandle "a")) .null,
      .binary .notMember (.column (sampleHandle "a")) (.group [.literal (.int32 1), .null]),
      .clauses .or []]

/-- The condition over another handle, in its plain form. -/
def samplePlain : Expr :=
  .clauses .and
    [.binary .eq (.test (sampleHandle "b") .isTrue) (.literal .null),
      .binary .notMember (.column (sampleHandle "b")) (.literal (.list [.int32 1, .null])),
      .literal (.boolean true)]

/-- The two conditions are one program. But a group in a group is not folded into a constant with
it, though the value is the same. -/
theorem same_iff_elaborate_eq_samples :
    (∃ p q, ofExpr sampleNamed = .ok p ∧ ofExpr samplePlain = .ok q ∧ p.same q = true) ∧
      ∃ p q, ofExpr (.group [.group [.literal (.int32 1)]]) = .ok p ∧
        ofExpr (.group [.literal (.list [.int32 1])]) = .ok q ∧ p.same q = false := by
  refine ⟨⟨_, _, rfl, rfl, ?_⟩, ⟨_, _, rfl, rfl, ?_⟩⟩
  · exact (same_iff_elaborate_eq (e := sampleNamed) (d := samplePlain) rfl rfl).2 rfl
  · rw [Bool.eq_false_iff, Ne,
      same_iff_elaborate_eq (e := .group [.group [.literal (.int32 1)]])
        (d := .group [.literal (.list [.int32 1])]) rfl rfl]
    rintro ⟨⟩

end Program

end RowFlags
