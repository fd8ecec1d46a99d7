import RowFlags.Proofs.Expression.Compilation

/-!
# Arithmetic that is exact or refused

A term is put together from 32-bit numbers, NULLs and columns by negation and the four operations.
Its exact value is the one over all integers, or NULL where an operand is NULL. Evaluation comes to
the nodes of a term in the order of `Term.visited`: operands before their operator, the right one
before the left. A node offends if it divides a number by zero or its exact value is no 32-bit
number. A term of which no node offends evaluates to its exact value, and any other one fails for
the first node that does (`Term.evaluate_exact`).
-/

set_option autoImplicit false

namespace RowFlags

/-! ## 32-bit numbers -/

/-- The integers that 32 bits hold. -/
def IsInt32 (i : Int) : Prop := -2147483648 ≤ i ∧ i < 2147483648

instance (i : Int) : Decidable (IsInt32 i) := by
  unfold IsInt32
  infer_instance

theorem isInt32_toInt (n : Int32) : IsInt32 n.toInt := ⟨n.le_toInt, n.toInt_lt⟩

theorem exists_int32?_iff {i : Int} : (∃ n, int32? i = some n) ↔ IsInt32 i := by
  constructor
  · rintro ⟨n, hn⟩
    rw [← toInt_of_int32? hn]
    exact isInt32_toInt n
  · intro h
    have hmin : Int32.minValue.toInt = -2147483648 := rfl
    have hmax : Int32.maxValue.toInt = 2147483647 := rfl
    unfold IsInt32 at h
    exact ⟨_, dif_pos (by omega)⟩

theorem int32?_eq_none {i : Int} (h : ¬ IsInt32 i) : int32? i = none := by
  rw [Option.eq_none_iff_forall_ne_some]
  intro n hn
  exact h (exists_int32?_iff.1 ⟨n, hn⟩)

namespace Value

/-- The number that a value is, if it is one. -/
def number? : Value → Option Int
  | .int32 n => some n.toInt
  | _ => none

theorem isInt32_of_number? {v : Value} {i : Int} (h : v.number? = some i) : IsInt32 i := by
  unfold number? at h
  split at h
  · cases h
    exact isInt32_toInt _
  · cases h

theorem fits_int32_iff {v : Value} : v.fits .int32 = true ↔ v = .null ∨ ∃ n, v = .int32 n := by
  cases v <;> simp [fits]

end Value

/-- A number has its exact opposite, unless there is no number for it. -/
theorem UnaryOp.apply_neg_cases (n : Int32) :
    (∃ m, neg.apply (.int32 n) = .ok (.int32 m) ∧ m.toInt = -n.toInt) ∨
      ¬ IsInt32 (-n.toInt) ∧ neg.apply (.int32 n) = .error (.overflow (.unary .neg)) := by
  unfold apply UnaryFunction.apply
  dsimp only
  by_cases hfits : IsInt32 (-n.toInt)
  · obtain ⟨m, hm⟩ := exists_int32?_iff.2 hfits
    rw [hm]
    exact .inl ⟨m, rfl, toInt_of_int32? hm⟩
  · rw [int32?_eq_none hfits]
    exact .inr ⟨hfits, rfl⟩

/-- Two numbers calculate to the exact result, unless there is no quotient or no number for it. -/
theorem BinaryFunction.calculate_cases (op : Arithmetic) (a b : Int32) :
    (op = .div ∧ b.toInt = 0) ∧ calculate op a b = .error .divisionByZero ∨
      ¬ (op = .div ∧ b.toInt = 0) ∧
        ((∃ n, calculate op a b = .ok (.int32 n) ∧ n.toInt = op.onInt a.toInt b.toInt) ∨
          ¬ IsInt32 (op.onInt a.toInt b.toInt) ∧
            calculate op a b = .error (.overflow (.binary (.arithmetic op)))) := by
  have hzero : b.toInt = 0 ↔ b = 0 := Int32.toInt_inj (y := 0)
  rw [hzero, calculate]
  by_cases hdiv : op = .div ∧ b = 0
  · exact .inl ⟨hdiv, if_pos hdiv⟩
  · refine .inr ⟨hdiv, ?_⟩
    rw [if_neg hdiv]
    by_cases hfits : IsInt32 (op.onInt a.toInt b.toInt)
    · obtain ⟨n, hn⟩ := exists_int32?_iff.2 hfits
      rw [hn]
      exact .inl ⟨n, rfl, toInt_of_int32? hn⟩
    · rw [int32?_eq_none hfits]
      exact .inr ⟨hfits, rfl⟩

/-! ## Terms -/

/-- A calculation with numbers, NULLs and columns. -/
inductive Term where
  | number (n : Int32)
  | null
  | column (c : Column)
  | neg (operand : Term)
  | binary (op : Arithmetic) (left right : Term)
  deriving DecidableEq

namespace Term

/-- The term as an expression. -/
def toExpr : Term → Expr
  | .number n => .literal (.int32 n)
  | .null => .null
  | .column c => .column c
  | .neg operand => operand.toExpr.neg
  | .binary op left right => .binary (.arithmetic op) left.toExpr right.toExpr

/-- The columns of a term. -/
def columns : Term → List Column
  | .number _ | .null => []
  | .column c => [c]
  | .neg operand => operand.columns
  | .binary _ left right => left.columns ++ right.columns

/-- The nodes of a term in the order in which they are evaluated. -/
def visited : Term → List Term
  | .neg operand => operand.visited ++ [.neg operand]
  | .binary op left right => right.visited ++ left.visited ++ [.binary op left right]
  | t => [t]

theorem exists_compile (t : Term) : ∃ code, t.toExpr.compile = .ok code := by
  induction t with
  | number n => exact ⟨_, rfl⟩
  | null => exact ⟨_, rfl⟩
  | column c => exact ⟨_, rfl⟩
  | neg operand ih =>
    obtain ⟨code, hcode⟩ := ih
    rw [toExpr, Expr.neg, Expr.compile, hcode]
    exact ⟨_, rfl⟩
  | binary op left right ihleft ihright =>
    obtain ⟨leftCode, hleft⟩ := ihleft
    obtain ⟨rightCode, hright⟩ := ihright
    rw [toExpr, Expr.compile, hleft, hright]
    exact ⟨_, rfl⟩

section Exact

variable {ε : Type} (lookup : Column → Except ε Value)

/-- The value over the integers, NULL as soon as an operand is. A quotient drops its fraction. -/
def exact : Term → Option Int
  | .number n => some n.toInt
  | .null => none
  | .column c => (lookup c).toOption.bind Value.number?
  | .neg operand => do
    let a ← operand.exact
    return -a
  | .binary op left right => do
    let a ← left.exact
    let b ← right.exact
    return op.onInt a b

/-- Why a node is refused itself, its operands being NULL or any integers. -/
def offence? : Term → Option EvalError
  | .neg operand => do
    let a ← operand.exact lookup
    if IsInt32 (-a) then none else some (.overflow (.unary .neg))
  | .binary op left right => do
    let a ← left.exact lookup
    let b ← right.exact lookup
    if op = .div ∧ b = 0 then some .divisionByZero
    else if IsInt32 (op.onInt a b) then none
    else some (.overflow (.binary (.arithmetic op)))
  | _ => none

/-- All that comes up over the integers are 32-bit numbers, and no number is divided by zero. -/
structure Calculable (t : Term) : Prop where
  fits : ∀ s ∈ t.visited, ∀ i, s.exact lookup = some i → IsInt32 i
  divides : ∀ left right, .binary .div left right ∈ t.visited → ∀ a,
    left.exact lookup = some a → right.exact lookup ≠ some 0

variable {lookup}

theorem exact_neg_iff {operand : Term} {i : Int} :
    (neg operand).exact lookup = some i ↔ ∃ a, operand.exact lookup = some a ∧ -a = i := by
  simp [exact, Option.bind_eq_some_iff]

theorem exact_binary_iff {op : Arithmetic} {left right : Term} {i : Int} :
    (binary op left right).exact lookup = some i ↔
      ∃ a b, left.exact lookup = some a ∧ right.exact lookup = some b ∧ op.onInt a b = i := by
  simp [exact, Option.bind_eq_some_iff]

/-- A node does not offend as long as its exact value is a 32-bit number and it divides no number
by zero. -/
theorem offence?_eq_none_iff {t : Term} :
    t.offence? lookup = none ↔
      (∀ i, t.exact lookup = some i → IsInt32 i) ∧
        ∀ left right, t = .binary .div left right → ∀ a,
          left.exact lookup = some a → right.exact lookup ≠ some 0 := by
  cases t with
  | number n => simp [offence?, exact, isInt32_toInt]
  | null => simp [offence?, exact]
  | column c =>
    have hin : ∀ i, (column c).exact lookup = some i → IsInt32 i := by
      intro i hi
      obtain ⟨v, -, hv⟩ := Option.bind_eq_some_iff.1 hi
      exact Value.isInt32_of_number? hv
    simpa [offence?] using hin
  | neg operand => simp [offence?, exact_neg_iff]
  | binary op left right =>
    simp only [offence?, exact_binary_iff, Option.bind_eq_bind, Option.bind_eq_none_iff]
    constructor
    · intro h
      refine ⟨?_, ?_⟩
      · rintro _ ⟨a, b, ha, hb, rfl⟩
        have hnode := h a ha b hb
        split at hnode
        · cases hnode
        · split at hnode
          · assumption
          · cases hnode
      · rintro left right ⟨⟩ a ha hzero
        have hnode := h a ha 0 hzero
        rw [if_pos ⟨rfl, rfl⟩] at hnode
        cases hnode
    · rintro ⟨hin, hdivides⟩ a ha b hb
      have hnonzero : ¬ (op = .div ∧ b = 0) := by
        rintro ⟨rfl, rfl⟩
        exact hdivides left right rfl a ha hb
      rw [if_neg hnonzero, if_pos (hin _ ⟨a, b, ha, hb, rfl⟩)]

theorem calculable_iff {t : Term} :
    t.Calculable lookup ↔ t.visited.findSome? (offence? lookup) = none := by
  rw [List.findSome?_eq_none_iff]
  constructor
  · intro h s hs
    refine offence?_eq_none_iff.2 ⟨h.fits s hs, ?_⟩
    rintro left right rfl
    exact h.divides left right hs
  · intro h
    refine ⟨fun s hs => (offence?_eq_none_iff.1 (h s hs)).1, ?_⟩
    intro left right hs
    exact (offence?_eq_none_iff.1 (h _ hs)).2 left right rfl

end Exact

/-! ## Evaluation -/

section Evaluation

variable {ε : Type} (raise : EvalError → ε) (lookup : Column → Except ε Value)

/-- What comes of going through nodes in order: a number or NULL, as the integers have it, or the
failure of the first node that offends. -/
inductive Settles (nodes : List Term) (value : Option Int) : Except ε Value → Prop
  | ok {v : Value} (hnodes : nodes.findSome? (offence? lookup) = none)
    (hfits : v.fits .int32 = true) (hvalue : v.number? = value) : Settles nodes value (.ok v)
  | error {cause : EvalError} (hnodes : nodes.findSome? (offence? lookup) = some cause) :
    Settles nodes value (.error (raise cause))

variable {raise lookup}

theorem Settles.bind {front back : List Term} {a b : Option Int} {x : ExceptT ε Id Value}
    {f : Value → ExceptT ε Id Value} (hx : Settles raise lookup front a x.run)
    (hf : ∀ v : Value, v.fits .int32 = true → v.number? = a →
      Settles raise lookup back b (f v).run) :
    Settles raise lookup (front ++ back) b (x >>= f).run := by
  rw [Outcome.run_bind_id]
  generalize x.run = first at hx ⊢
  cases hx with
  | @ok v hfront hfits hvalue =>
    have hlater := hf v hfits hvalue
    rw [Outcome.ok_bind]
    generalize (f v).run = last at hlater ⊢
    cases hlater with
    | ok hback hfits hvalue => exact .ok (by simp [hfront, hback]) hfits hvalue
    | error hback => exact .error (by simp [hfront, hback])
  | error hfront => exact .error (by simp [hfront])

/-- A node that does not offend leaves its value. -/
theorem Settles.leaf {t : Term} {v : Value} (ht : t.offence? lookup = none)
    (hfits : v.fits .int32 = true) (hvalue : v.number? = t.exact lookup) :
    Settles raise lookup [t] (t.exact lookup) (.ok v) :=
  .ok (by simp [ht]) hfits hvalue

/-- A node that offends fails. -/
theorem Settles.offend {t : Term} {cause : EvalError} (ht : t.offence? lookup = some cause)
    (value : Option Int) : Settles raise lookup [t] value (.error (raise cause)) :=
  .error (by simp [ht])

theorem settles_neg {operand : Term} {v : Value} (hfits : v.fits .int32 = true)
    (hvalue : v.number? = operand.exact lookup) :
    Settles raise lookup [.neg operand] ((neg operand).exact lookup)
      (EvalError.raising (m := Id) raise (UnaryOp.neg.apply v)).run := by
  rcases Value.fits_int32_iff.1 hfits with rfl | ⟨n, rfl⟩
  · exact .leaf (by simp [offence?, ← hvalue, Value.number?]) rfl
      (by simp [exact, ← hvalue, Value.number?])
  · have hnumber : operand.exact lookup = some n.toInt := hvalue.symm
    rcases UnaryOp.apply_neg_cases n with ⟨m, happly, hm⟩ | ⟨hout, happly⟩
    · have hin : IsInt32 (-n.toInt) := hm ▸ isInt32_toInt m
      rw [happly]
      exact .leaf (by simp [offence?, hnumber, hin]) rfl
        (by simp [exact, hnumber, hm, Value.number?])
    · rw [happly]
      exact .offend (by simp [offence?, hnumber, hout]) _

theorem settles_binary {op : Arithmetic} {left right : Term} {v w : Value}
    (hv : v.fits .int32 = true) (hleft : v.number? = left.exact lookup)
    (hw : w.fits .int32 = true) (hright : w.number? = right.exact lookup) :
    Settles raise lookup [.binary op left right] ((binary op left right).exact lookup)
      (EvalError.raising (m := Id) raise ((BinaryOp.arithmetic op).apply v w)).run := by
  rcases Value.fits_int32_iff.1 hv with rfl | ⟨a, rfl⟩
  · -- a NULL on the left
    have hnone : left.exact lookup = none := hleft.symm
    exact .leaf (by simp [offence?, hnone]) rfl (by simp [exact, hnone, Value.number?])
  rcases Value.fits_int32_iff.1 hw with rfl | ⟨b, rfl⟩
  · -- a NULL on the right
    have hnone : right.exact lookup = none := hright.symm
    exact .leaf (by simp [offence?, hnone]) rfl (by simp [exact, hnone, Value.number?])
  have ha : left.exact lookup = some a.toInt := hleft.symm
  have hb : right.exact lookup = some b.toInt := hright.symm
  have happly : (BinaryOp.arithmetic op).apply (.int32 a) (.int32 b) =
      BinaryFunction.calculate op a b := rfl
  rw [happly]
  rcases BinaryFunction.calculate_cases op a b with
    ⟨hzero, hcalculate⟩ | ⟨hzero, ⟨n, hcalculate, hn⟩ | ⟨hout, hcalculate⟩⟩
  · rw [hcalculate]
    exact .offend (by simp [offence?, ha, hb, hzero]) _
  · have hin : IsInt32 (op.onInt a.toInt b.toInt) := hn ▸ isInt32_toInt n
    rw [hcalculate]
    exact .leaf (by simp [offence?, ha, hb, hzero, hin]) rfl
      (by simp [exact, ha, hb, hn, Value.number?])
  · rw [hcalculate]
    exact .offend (by simp [offence?, ha, hb, hzero, hout]) _

/-- Going through its nodes in order settles a term. -/
theorem settles_interpret {t : Term}
    (h : ∀ c ∈ t.columns, ∃ v, lookup c = .ok v ∧ v.fits .int32 = true) :
    Settles raise lookup t.visited (t.exact lookup)
      (t.toExpr.interpret (m := Id) raise lookup).run := by
  induction t with
  | number n => exact .leaf rfl rfl rfl
  | null => exact .leaf rfl rfl rfl
  | column c =>
    obtain ⟨v, hv, hfits⟩ := h c (List.mem_singleton_self c)
    have hvalue : v.number? = (column c).exact lookup := by rw [exact, hv]; rfl
    have hrun : ((column c).toExpr.interpret (m := Id) raise lookup).run = .ok v := hv
    rw [hrun]
    exact .leaf rfl hfits hvalue
  | neg operand ih =>
    rw [visited, toExpr, Expr.neg, Expr.interpret]
    exact (ih h).bind fun v => settles_neg
  | binary op left right ihleft ihright =>
    obtain ⟨hleft, hright⟩ := List.forall_mem_append.1 h
    rw [visited, List.append_assoc, toExpr, Expr.interpret]
    exact (ihright hright).bind fun w hw hwvalue =>
      (ihleft hleft).bind fun v hv hvvalue => settles_binary hv hvvalue hw hwvalue

end Evaluation

/-- Arithmetic is exact or refused. A term over columns that hold numbers or NULL always compiles.
As long as all that comes up over the integers are 32-bit numbers and no number is divided by zero,
it evaluates to its exact value; otherwise it fails for the first node that offends. So a number
that comes out is the exact one. -/
theorem evaluate_exact {ε : Type} (raise : EvalError → ε) {lookup : Column → Except ε Value}
    {t : Term} (h : ∀ c ∈ t.columns, ∃ v, lookup c = .ok v ∧ v.fits .int32 = true) :
    ∃ p, Program.ofExpr t.toExpr = .ok p ∧
      (t.Calculable lookup → ∃ v, p.evaluate raise lookup = .ok v ∧ v.fits .int32 = true ∧
        v.number? = t.exact lookup) ∧
      (¬ t.Calculable lookup → ∃ cause, t.visited.findSome? (offence? lookup) = some cause ∧
        p.evaluate raise lookup = .error (raise cause)) ∧
      ∀ n, p.evaluate raise lookup = .ok (.int32 n) → t.exact lookup = some n.toInt := by
  obtain ⟨code, hcode⟩ := t.exists_compile
  refine ⟨⟨t.toExpr, code⟩, Program.ofExpr_eq_ok_iff.2 ⟨code, hcode, rfl⟩, ?_⟩
  have hsettles : Settles raise lookup t.visited (t.exact lookup)
      (t.toExpr.interpret (m := Id) raise lookup).run := settles_interpret h
  rw [Program.evaluate_of_compile raise lookup hcode, calculable_iff]
  generalize (t.toExpr.interpret (m := Id) raise lookup).run = outcome at hsettles ⊢
  cases hsettles with
  | @ok v hnodes hfits hvalue =>
    refine ⟨fun _ => ⟨v, rfl, hfits, hvalue⟩, fun hnot => absurd hnodes hnot, ?_⟩
    rintro n ⟨⟩
    exact hvalue.symm
  | @error cause hnodes =>
    refine ⟨?_, fun _ => ⟨cause, hnodes, rfl⟩, ?_⟩
    · intro hnone
      rw [hnone] at hnodes
      cases hnodes
    · rintro n ⟨⟩

/-- `a / b + -c` over three columns. -/
def sampleTerm : Term :=
  let column position := .column (Program.sampleColumn position .int32)
  .binary .add (.binary .div (column 0) (column 1)) (.neg (column 2))

/-- A row with these values in the three columns. -/
def sampleNumbers (a b c : Value) (column : Column) : Except EvalError Value :=
  .ok (if column.position = 0 then a else if column.position = 1 then b else c)

theorem sampleNumbers_fit {a b c : Value} (ha : a.fits .int32 = true) (hb : b.fits .int32 = true)
    (hc : c.fits .int32 = true) :
    ∀ d ∈ sampleTerm.columns, ∃ v, sampleNumbers a b c d = .ok v ∧ v.fits .int32 = true := by
  intro d _
  refine ⟨_, rfl, ?_⟩
  split
  · exact ha
  · split
    · exact hb
    · exact hc

/-- The least number has no opposite, and that is found before the division by zero; nor has it a
quotient by -1. Divided by 3, -5 loses two thirds; and NULL is divided by zero. -/
theorem evaluate_exact_sampleTerm :
    ∃ p, Program.ofExpr sampleTerm.toExpr = .ok p ∧
      p.evaluate id (sampleNumbers (.int32 1) (.int32 0) (.int32 (-2147483648))) =
        .error (.overflow (.unary .neg)) ∧
      p.evaluate id (sampleNumbers (.int32 (-2147483648)) (.int32 (-1)) (.int32 7)) =
        .error (.overflow (.binary (.arithmetic .div))) ∧
      p.evaluate id (sampleNumbers (.int32 1) (.int32 0) .null) = .error .divisionByZero ∧
      (∃ v, p.evaluate id (sampleNumbers (.int32 (-5)) (.int32 3) (.int32 2147483647)) = .ok v ∧
        v.number? = some (-2147483648)) ∧
      ∃ v, p.evaluate id (sampleNumbers .null (.int32 0) (.int32 7)) = .ok v ∧
        v.number? = none := by
  obtain ⟨p, hp⟩ : ∃ p, Program.ofExpr sampleTerm.toExpr = .ok p := ⟨_, rfl⟩
  have hfailure : ∀ {a b c : Value} {cause : EvalError}, a.fits .int32 = true →
      b.fits .int32 = true → c.fits .int32 = true →
      sampleTerm.visited.findSome? (offence? (sampleNumbers a b c)) = some cause →
      p.evaluate id (sampleNumbers a b c) = .error cause := by
    intro a b c cause ha hb hc hcause
    obtain ⟨q, hq, -, hfails, -⟩ := evaluate_exact id (sampleNumbers_fit ha hb hc)
    obtain rfl := Except.ok.inj (hp.symm.trans hq)
    obtain ⟨first, hfirst, hevaluate⟩ := hfails (by simp [calculable_iff, hcause])
    rw [hcause] at hfirst
    cases hfirst
    exact hevaluate
  have hvalue : ∀ {a b c : Value}, a.fits .int32 = true → b.fits .int32 = true →
      c.fits .int32 = true → sampleTerm.visited.findSome? (offence? (sampleNumbers a b c)) = none →
      ∃ v, p.evaluate id (sampleNumbers a b c) = .ok v ∧
        v.number? = sampleTerm.exact (sampleNumbers a b c) := by
    intro a b c ha hb hc hnone
    obtain ⟨q, hq, hok, -, -⟩ := evaluate_exact id (sampleNumbers_fit ha hb hc)
    obtain rfl := Except.ok.inj (hp.symm.trans hq)
    obtain ⟨v, hv, -, hexact⟩ := hok (calculable_iff.2 hnone)
    exact ⟨v, hv, hexact⟩
  exact ⟨p, hp, hfailure rfl rfl rfl (by decide), hfailure rfl rfl rfl (by decide),
    hfailure rfl rfl rfl (by decide), hvalue rfl rfl rfl (by decide),
    hvalue rfl rfl rfl (by decide)⟩

end Term

end RowFlags
