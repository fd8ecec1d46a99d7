import RowFlags.Text.Bytes

/-!
# Maps from names

A finite map from names to `β`, listed in byte order of the names. Equal lookups make equal maps
(`NameMap.ext`), so a map is known by what it answers.
-/

set_option autoImplicit false

namespace RowFlags

/-- Finitely many names, each with a value. -/
structure NameMap (β : Type) where
  /-- The names with their values, in byte order of the names. -/
  entries : List (String × β)
  rising : entries.Pairwise fun a b => Text.order a.1 b.1 = .lt

namespace NameMap

variable {β : Type}

/-- The first value that a list of entries gives for a name. -/
def find? (name : String) : List (String × β) → Option β
  | [] => none
  | (key, value) :: rest => if key = name then some value else find? name rest

theorem find?_cons (name : String) (e : String × β) (rest : List (String × β)) :
    find? name (e :: rest) = if e.1 = name then some e.2 else find? name rest := rfl

theorem mem_of_find?_eq_some {name : String} {value : β} {entries : List (String × β)}
    (h : find? name entries = some value) : (name, value) ∈ entries := by
  induction entries with
  | nil => cases h
  | cons e rest ih =>
    rw [find?_cons] at h
    split at h
    · next heq =>
      cases h
      subst heq
      exact List.mem_cons_self
    · exact List.mem_cons_of_mem _ (ih h)

/-- The entries with `name` bound to `value`, at its place in byte order. -/
def insertEntry (name : String) (value : β) : List (String × β) → List (String × β)
  | [] => [(name, value)]
  | (key, old) :: rest =>
    match Text.order name key with
    | .lt => (name, value) :: (key, old) :: rest
    | .eq => (name, value) :: rest
    | .gt => (key, old) :: insertEntry name value rest

theorem mem_of_mem_insertEntry {name : String} {value : β} {entries : List (String × β)}
    {e : String × β} (h : e ∈ insertEntry name value entries) :
    e = (name, value) ∨ e ∈ entries := by
  induction entries with
  | nil => simpa [insertEntry] using h
  | cons d rest ih =>
    unfold insertEntry at h
    split at h
    · simpa using h
    · exact (List.mem_cons.1 h).imp_right (List.mem_cons_of_mem _)
    · rcases List.mem_cons.1 h with rfl | h
      · exact .inr (by simp)
      · exact (ih h).imp_right (List.mem_cons_of_mem _)

theorem rising_insertEntry {name : String} {value : β} {entries : List (String × β)}
    (h : entries.Pairwise fun a b => Text.order a.1 b.1 = .lt) :
    (insertEntry name value entries).Pairwise fun a b => Text.order a.1 b.1 = .lt := by
  induction entries with
  | nil => simp [insertEntry]
  | cons d rest ih =>
    rw [List.pairwise_cons] at h
    unfold insertEntry
    split
    · next hlt =>
      refine List.pairwise_cons.2 ⟨fun e he => ?_, List.pairwise_cons.2 h⟩
      rcases List.mem_cons.1 he with rfl | he
      · exact hlt
      · exact Std.TransCmp.lt_trans hlt (h.1 e he)
    · next heq =>
      obtain rfl := Std.LawfulEqCmp.eq_of_compare heq
      exact List.pairwise_cons.2 h
    · next hgt =>
      refine List.pairwise_cons.2 ⟨fun e he => ?_, ih h.2⟩
      rcases mem_of_mem_insertEntry he with rfl | he
      · exact Std.OrientedCmp.lt_of_gt hgt
      · exact h.1 e he

theorem find?_insertEntry (name other : String) (value : β) (entries : List (String × β)) :
    find? other (insertEntry name value entries) =
      if name = other then some value else find? other entries := by
  induction entries with
  | nil => simp [insertEntry, find?]
  | cons d rest ih =>
    unfold insertEntry
    split
    · simp [find?]
    · next heq =>
      obtain rfl := Std.LawfulEqCmp.eq_of_compare heq
      simp only [find?]
      split <;> rfl
    · next hgt =>
      have hne : name ≠ d.1 := by
        rintro rfl
        rw [Text.order_self] at hgt
        cases hgt
      simp only [find?, ih]
      by_cases hd : d.1 = other
      · simp [hd, show name ≠ other from fun h => hne (h.trans hd.symm)]
      · simp [hd]

/-- The map without names. -/
def empty : NameMap β := ⟨[], List.Pairwise.nil⟩

instance : EmptyCollection (NameMap β) := ⟨empty⟩

instance : Inhabited (NameMap β) := ⟨empty⟩

/-- The value of a name. -/
def get? (m : NameMap β) (name : String) : Option β := find? name m.entries

/-- The map with `name` bound to `value`. -/
def insert (m : NameMap β) (name : String) (value : β) : NameMap β :=
  ⟨insertEntry name value m.entries, rising_insertEntry m.rising⟩

/-- Whether a name has a value. -/
def contains (m : NameMap β) (name : String) : Bool := (m.get? name).isSome

/-- The names in byte order. -/
def names (m : NameMap β) : List String := m.entries.map Prod.fst

/-- The map of a list of entries; of entries of one name the last counts. -/
def ofList (entries : List (String × β)) : NameMap β :=
  entries.foldl (fun m e => m.insert e.1 e.2) empty

@[simp] theorem get?_empty (name : String) : (empty : NameMap β).get? name = none := rfl

@[simp] theorem get?_insert (m : NameMap β) (name other : String) (value : β) :
    (m.insert name value).get? other = if name = other then some value else m.get? other :=
  find?_insertEntry name other value m.entries

theorem find?_eq_none_of_lt {name : String} {entries : List (String × β)}
    (h : ∀ e ∈ entries, Text.order name e.1 = .lt) : find? name entries = none := by
  induction entries with
  | nil => rfl
  | cons d rest ih =>
    have hne : d.1 ≠ name := by
      rintro rfl
      have hlt := h d List.mem_cons_self
      rw [Text.order_self] at hlt
      cases hlt
    simp [find?, hne, ih fun e he => h e (List.mem_cons_of_mem _ he)]

/-- The first name of rising entries comes before no first name of other entries that answer it
alike. -/
theorem not_lt_of_find?_eq {d e : String × β} {xs ys : List (String × β)}
    (hy : (e :: ys).Pairwise fun a b => Text.order a.1 b.1 = .lt)
    (h : find? d.1 (d :: xs) = find? d.1 (e :: ys)) : Text.order d.1 e.1 ≠ .lt := by
  intro hlt
  have hnone : find? d.1 (e :: ys) = none := by
    apply find?_eq_none_of_lt
    intro x hx
    rcases List.mem_cons.1 hx with rfl | hx
    · exact hlt
    · exact Std.TransCmp.lt_trans hlt ((List.pairwise_cons.1 hy).1 x hx)
  rw [hnone, find?_cons, if_pos rfl] at h
  cases h

theorem entries_ext {xs ys : List (String × β)}
    (hx : xs.Pairwise fun a b => Text.order a.1 b.1 = .lt)
    (hy : ys.Pairwise fun a b => Text.order a.1 b.1 = .lt)
    (h : ∀ name, find? name xs = find? name ys) : xs = ys := by
  induction xs generalizing ys with
  | nil =>
    cases ys with
    | nil => rfl
    | cons e rest => simpa [find?] using h e.1
  | cons d rest ih =>
    cases ys with
    | nil => simpa [find?] using h d.1
    | cons e tail =>
      have hde : d.1 = e.1 := by
        match hord : Text.order d.1 e.1 with
        | .eq => exact Std.LawfulEqCmp.eq_of_compare hord
        | .lt => exact absurd hord (not_lt_of_find?_eq hy (h d.1))
        | .gt => exact absurd (Std.OrientedCmp.lt_of_gt hord) (not_lt_of_find?_eq hx (h e.1).symm)
      obtain ⟨dk, dv⟩ := d
      obtain ⟨ek, ev⟩ := e
      obtain rfl : dk = ek := hde
      have hv : dv = ev := by simpa [find?] using h dk
      subst hv
      rw [List.pairwise_cons] at hx hy
      congr 1
      apply ih hx.2 hy.2
      intro name
      have hname := h name
      by_cases hk : dk = name
      · subst hk
        rw [find?_eq_none_of_lt hx.1, find?_eq_none_of_lt hy.1]
      · simpa [find?, hk] using hname

/-- Maps that answer every name alike are the same map. -/
@[ext] theorem ext {m n : NameMap β} (h : ∀ name, m.get? name = n.get? name) : m = n := by
  obtain ⟨xs, hx⟩ := m
  obtain ⟨ys, hy⟩ := n
  obtain rfl : xs = ys := entries_ext hx hy h
  rfl

instance [DecidableEq β] : DecidableEq (NameMap β) := fun m n =>
  decidable_of_iff (m.entries = n.entries) (by cases m; cases n; simp)

end NameMap

end RowFlags
