import RowFlags.Program.Compile

/-!
# The nodes of an expression

An expression stands in a tree if it is the tree or stands in one of its parts. `visited` lists the
nodes in the order in which compiling comes to them: a node before its parts, the right operand
before the left one, items and clauses in their order. What is passed to a database function is a
part of the call, but compiling does not get there; in a tree without calls every node is visited
(`mem_visited_iff`).
-/

set_option autoImplicit false

namespace RowFlags.Expr

/-- The expressions right below the root. -/
def parts : Expr → List Expr
  | .column _ | .literal _ | .null | .test _ _ => []
  | .group items | .clauses _ items => items
  | .unary _ operand => [operand]
  | .binary _ left right => [left, right]
  | .call _ arguments => arguments

/-- The parts that compiling goes into, in its order. -/
def steps : Expr → List Expr
  | .binary _ left right => [right, left]
  | .call _ _ => []
  | e => e.parts

/-- `d` is a node of the tree, at any depth. -/
inductive StandsIn (d : Expr) : Expr → Prop
  | root : StandsIn d d
  | within {part e : Expr} (hpart : part ∈ e.parts) (h : StandsIn d part) : StandsIn d e

theorem standsIn_iff {d e : Expr} : d.StandsIn e ↔ d = e ∨ ∃ part ∈ e.parts, d.StandsIn part := by
  constructor
  · rintro (_ | ⟨hpart, h⟩)
    · exact .inl rfl
    · exact .inr ⟨_, hpart, h⟩
  · rintro (rfl | ⟨part, hpart, h⟩)
    · exact .root
    · exact .within hpart h

theorem mem_parts_of_mem_steps {part e : Expr} (h : part ∈ e.steps) : part ∈ e.parts := by
  cases e with
  | binary op left right => simpa [steps, parts, or_comm] using h
  | call function arguments => cases h
  | _ => exact h

/-- The node is a call of a database function. -/
def isCall : Expr → Bool
  | .call _ _ => true
  | _ => false

theorem mem_steps_iff {part e : Expr} (h : e.isCall = false) : part ∈ e.steps ↔ part ∈ e.parts := by
  cases e with
  | binary op left right => simp [steps, parts, or_comm]
  | call function arguments => cases h
  | _ => rfl

mutual

/-- What holds of a tree because it holds of its parts holds of every tree. -/
theorem induction_parts {P : Expr → Prop} (h : ∀ e, (∀ part ∈ e.parts, P part) → P e) :
    (e : Expr) → P e
  | .column _ => h _ (List.forall_mem_nil P)
  | .literal _ => h _ (List.forall_mem_nil P)
  | .null => h _ (List.forall_mem_nil P)
  | .group items => h _ (induction_partsAll h items)
  | .unary _ operand => h _ (List.forall_mem_singleton.2 (induction_parts h operand))
  | .binary _ left right =>
    h _ (List.forall_mem_cons.2
      ⟨induction_parts h left, List.forall_mem_singleton.2 (induction_parts h right)⟩)
  | .test _ _ => h _ (List.forall_mem_nil P)
  | .clauses _ items => h _ (induction_partsAll h items)
  | .call _ arguments => h _ (induction_partsAll h arguments)

theorem induction_partsAll {P : Expr → Prop} (h : ∀ e, (∀ part ∈ e.parts, P part) → P e) :
    (items : List Expr) → ∀ item ∈ items, P item
  | [] => List.forall_mem_nil P
  | item :: rest =>
    List.forall_mem_cons.2 ⟨induction_parts h item, induction_partsAll h rest⟩

end

mutual

/-- The nodes in the order in which compiling comes to them. -/
def visited : Expr → List Expr
  | .group items => .group items :: visitedAll items
  | .unary op operand => .unary op operand :: operand.visited
  | .binary op left right => .binary op left right :: (right.visited ++ left.visited)
  | .clauses op items => .clauses op items :: visitedAll items
  | e => [e]

/-- The nodes of the expressions, one after the other. -/
def visitedAll : List Expr → List Expr
  | [] => []
  | item :: rest => item.visited ++ visitedAll rest

end

theorem visitedAll_eq_flatMap (items : List Expr) : visitedAll items = items.flatMap visited := by
  induction items with
  | nil => rfl
  | cons item rest ih => rw [visitedAll, ih, List.flatMap_cons]

theorem visited_eq_cons (e : Expr) : e.visited = e :: e.steps.flatMap visited := by
  cases e <;> simp [visited, steps, parts, visitedAll_eq_flatMap]

theorem self_mem_visited (e : Expr) : e ∈ e.visited := by
  rw [visited_eq_cons]
  exact List.mem_cons_self

/-- What is visited of a step is visited of the whole. -/
theorem mem_visited_of_mem_steps {d part e : Expr} (hpart : part ∈ e.steps)
    (h : d ∈ part.visited) : d ∈ e.visited := by
  rw [visited_eq_cons]
  exact List.mem_cons_of_mem _ (List.mem_flatMap.2 ⟨part, hpart, h⟩)

/-- Only nodes are visited. -/
theorem standsIn_of_mem_visited {d e : Expr} (h : d ∈ e.visited) : d.StandsIn e := by
  induction e using induction_parts with
  | h e ih =>
    rw [visited_eq_cons, List.mem_cons, List.mem_flatMap] at h
    rcases h with rfl | ⟨part, hpart, hd⟩
    · exact .root
    · have hpart := mem_parts_of_mem_steps hpart
      exact .within hpart (ih part hpart hd)

/-- Where compiling meets no call, it comes to every node. -/
theorem mem_visited_of_standsIn {d e : Expr} (hcalls : ∀ c ∈ e.visited, c.isCall = false)
    (h : d.StandsIn e) : d ∈ e.visited := by
  induction h with
  | root => exact self_mem_visited d
  | @within part e hpart _ ih =>
    have hstep := (mem_steps_iff (hcalls e (self_mem_visited e))).2 hpart
    have hlater : ∀ c ∈ part.visited, c ∈ e.visited := fun c => mem_visited_of_mem_steps hstep
    exact hlater d (ih fun c hc => hcalls c (hlater c hc))

theorem mem_visited_iff {d e : Expr} (hcalls : ∀ c ∈ e.visited, c.isCall = false) :
    d ∈ e.visited ↔ d.StandsIn e :=
  ⟨standsIn_of_mem_visited, mem_visited_of_standsIn hcalls⟩

/-- Among constants nothing is below anything. -/
theorem visitedAll_of_literals {items : List Expr} {values : List Value}
    (h : items.mapM literal? = some values) :
    visitedAll items = items ∧ ∀ item ∈ items, ∃ v, item.literal? = some v := by
  induction items generalizing values with
  | nil => exact ⟨rfl, List.forall_mem_nil _⟩
  | cons item rest ih =>
    simp only [List.mapM_cons, Option.bind_eq_bind, Option.bind_eq_some_iff] at h
    obtain ⟨v, hitem, tail, hrest, -⟩ := h
    obtain ⟨hvisited, hliterals⟩ := ih hrest
    have hroot : item.visited = [item] := by
      unfold literal? at hitem
      split at hitem <;> cases hitem <;> rfl
    refine ⟨?_, List.forall_mem_cons.2 ⟨⟨v, hitem⟩, hliterals⟩⟩
    rw [visitedAll, hroot, hvisited, List.singleton_append]

end RowFlags.Expr
