/-!
# Sorted lists without repetition

`distinct cmp xs` lists the members of `xs` in rising order, each once. It holds the same members
(`mem_distinct_iff`) in strictly rising order (`pairwise_distinct`), so it depends neither on their
order in `xs` nor on how often each is there.
-/

set_option autoImplicit false

namespace RowFlags

variable {α : Type} (cmp : α → α → Ordering)

/-- Puts `a` at its place among rising members, unless it is there already. -/
def insertDistinct (a : α) : List α → List α
  | [] => [a]
  | b :: rest =>
    match cmp a b with
    | .lt => a :: b :: rest
    | .eq => b :: rest
    | .gt => b :: insertDistinct a rest

/-- The members in rising order, each once. -/
def distinct (xs : List α) : List α := xs.foldr (insertDistinct cmp) []

@[simp] theorem distinct_nil : distinct cmp [] = [] := rfl

theorem mem_of_mem_insertDistinct {a b : α} {xs : List α} (h : b ∈ insertDistinct cmp a xs) :
    b = a ∨ b ∈ xs := by
  induction xs with
  | nil => simpa [insertDistinct] using h
  | cons c rest ih =>
    unfold insertDistinct at h
    split at h
    · simpa using h
    · exact .inr h
    · rcases List.mem_cons.1 h with rfl | h
      · exact .inr (by simp)
      · exact (ih h).imp_right (List.mem_cons_of_mem _)

theorem mem_insertDistinct_iff [Std.LawfulEqCmp cmp] {a b : α} {xs : List α} :
    b ∈ insertDistinct cmp a xs ↔ b = a ∨ b ∈ xs := by
  refine ⟨mem_of_mem_insertDistinct cmp, fun h => ?_⟩
  induction xs with
  | nil => simpa [insertDistinct] using h
  | cons c rest ih =>
    unfold insertDistinct
    split
    · simpa using h
    · next heq =>
      obtain rfl := Std.LawfulEqCmp.eq_of_compare heq
      simpa using h
    · rcases h with rfl | h
      · exact List.mem_cons_of_mem _ (ih (.inl rfl))
      · rcases List.mem_cons.1 h with rfl | h
        · exact List.mem_cons_self
        · exact List.mem_cons_of_mem _ (ih (.inr h))

theorem pairwise_insertDistinct [Std.TransCmp cmp] {a : α} {xs : List α}
    (h : xs.Pairwise (cmp · · = .lt)) : (insertDistinct cmp a xs).Pairwise (cmp · · = .lt) := by
  induction xs with
  | nil => simp [insertDistinct]
  | cons c rest ih =>
    rw [List.pairwise_cons] at h
    unfold insertDistinct
    split
    · next hac =>
      refine List.pairwise_cons.2 ⟨fun b hb => ?_, List.pairwise_cons.2 h⟩
      rcases List.mem_cons.1 hb with rfl | hb
      · exact hac
      · exact Std.TransCmp.lt_trans hac (h.1 b hb)
    · exact List.pairwise_cons.2 h
    · next hac =>
      refine List.pairwise_cons.2 ⟨fun b hb => ?_, ih h.2⟩
      rcases mem_of_mem_insertDistinct cmp hb with rfl | hb
      · exact Std.OrientedCmp.lt_of_gt hac
      · exact h.1 b hb

/-- Nothing is added: what is listed was there. -/
theorem mem_of_mem_distinct {b : α} {xs : List α} (h : b ∈ distinct cmp xs) : b ∈ xs := by
  induction xs with
  | nil => exact h
  | cons c rest ih =>
    rcases mem_of_mem_insertDistinct cmp h with rfl | h
    · exact List.mem_cons_self
    · exact List.mem_cons_of_mem _ (ih h)

theorem mem_distinct_iff [Std.LawfulEqCmp cmp] {b : α} {xs : List α} :
    b ∈ distinct cmp xs ↔ b ∈ xs := by
  induction xs with
  | nil => rfl
  | cons c rest ih =>
    show b ∈ insertDistinct cmp c (distinct cmp rest) ↔ _
    rw [mem_insertDistinct_iff, ih, List.mem_cons]

theorem mem_insertDistinct_of_mem {a b : α} {xs : List α} (h : b ∈ xs) :
    b ∈ insertDistinct cmp a xs := by
  induction xs with
  | nil => cases h
  | cons c rest ih =>
    unfold insertDistinct
    split
    · exact List.mem_cons_of_mem _ h
    · exact h
    · rcases List.mem_cons.1 h with rfl | h
      · exact List.mem_cons_self
      · exact List.mem_cons_of_mem _ (ih h)

theorem exists_mem_insertDistinct [Std.ReflCmp cmp] (a : α) (xs : List α) :
    ∃ b ∈ insertDistinct cmp a xs, cmp a b = .eq := by
  induction xs with
  | nil => exact ⟨a, List.mem_singleton_self a, Std.ReflCmp.compare_self⟩
  | cons c rest ih =>
    unfold insertDistinct
    split
    · exact ⟨a, List.mem_cons_self, Std.ReflCmp.compare_self⟩
    · next heq => exact ⟨c, List.mem_cons_self, heq⟩
    · obtain ⟨b, hb, heq⟩ := ih
      exact ⟨b, List.mem_cons_of_mem _ hb, heq⟩

/-- Each member is listed, or one that compares equal to it. -/
theorem exists_mem_distinct [Std.ReflCmp cmp] {a : α} {xs : List α} (h : a ∈ xs) :
    ∃ b ∈ distinct cmp xs, cmp a b = .eq := by
  induction xs with
  | nil => cases h
  | cons c rest ih =>
    rcases List.mem_cons.1 h with rfl | h
    · exact exists_mem_insertDistinct cmp a _
    · obtain ⟨b, hb, heq⟩ := ih h
      exact ⟨b, mem_insertDistinct_of_mem cmp hb, heq⟩

theorem pairwise_distinct [Std.TransCmp cmp] (xs : List α) :
    (distinct cmp xs).Pairwise (cmp · · = .lt) := by
  induction xs with
  | nil => exact List.Pairwise.nil
  | cons c rest ih => exact pairwise_insertDistinct cmp ih

end RowFlags
