import RowFlags.Proofs.Outcome
import RowFlags.Proofs.Text.Utf8
import RowFlags.Stored.Snapshot

/-!
# Reading snapshots

Every reader of a snapshot's parts takes off the front exactly what the writer makes of a part that
fits its counts, so the bytes that decode are those of a snapshot with anything behind them
(`decodeSnapshot_eq_some_iff`). A snapshot that is cut short is therefore none
(`decodeSnapshot_take`).
-/

set_option autoImplicit false

namespace RowFlags.Stored

/-- Every list of the snapshot is short enough to be counted in eight bytes. -/
structure Snapshot.Fits (x : Snapshot) : Prop where
  name : (Text.bytes x.tableName).length < span 8
  types : x.typeCodes.length < span 8
  slots : x.slots.length < span 8
  rows : ∀ row, some row ∈ x.slots → row.length < span 8

/-- A number that eight bytes hold is read from its own eight bytes only. -/
theorem exists_count_iff {data : List UInt8} {n : Nat} (rest : List UInt8) :
    (∃ count, split? 8 data = some (count, rest) ∧ toNat count = n) ↔
      n < span 8 ∧ data = ofNat 8 n ++ rest := by
  constructor
  · rintro ⟨count, hcount, rfl⟩
    obtain ⟨hwidth, rfl⟩ := split?_eq_some_iff.1 hcount
    have hrange := toNat_lt count
    have hcanonical := ofNat_toNat count
    rw [hwidth] at hrange hcanonical
    exact ⟨hrange, by rw [hcanonical]⟩
  · rintro ⟨hfits, rfl⟩
    exact ⟨_, split?_eq_some_iff.2 ⟨length_ofNat 8 n, rfl⟩, toNat_ofNat hfits⟩

theorem readCounted_eq_some_iff {data bytes : List UInt8} (rest : List UInt8) :
    readCounted data = some (bytes, rest) ↔
      bytes.length < span 8 ∧ data = counted bytes ++ rest := by
  constructor
  · intro h
    obtain ⟨⟨count, tail⟩, hcount, hbytes⟩ := Option.bind_eq_some_iff.1 h
    obtain ⟨hlength, rfl⟩ := split?_eq_some_iff.1 hbytes
    obtain ⟨hfits, rfl⟩ := (exists_count_iff _).1 ⟨count, hcount, hlength.symm⟩
    exact ⟨hfits, by rw [counted, List.append_assoc]⟩
  · rintro ⟨hfits, rfl⟩
    obtain ⟨count, hcount, hlength⟩ := (exists_count_iff (bytes ++ rest)).2 ⟨hfits, rfl⟩
    have hbytes : split? (toNat count) (bytes ++ rest) = some (bytes, rest) :=
      split?_eq_some_iff.2 ⟨hlength.symm, rfl⟩
    simp only [readCounted, counted, List.append_assoc, hcount, hbytes, Option.bind_eq_bind,
      Option.bind_some]

theorem readSlot_eq_some_iff {data : List UInt8} {slot : Option (List UInt8)}
    (rest : List UInt8) :
    readSlot data = some (slot, rest) ↔
      (∀ row, slot = some row → row.length < span 8) ∧ data = slotBytes slot ++ rest := by
  constructor
  · intro h
    unfold readSlot at h
    split at h
    · cases h
      exact ⟨by simp, rfl⟩
    · obtain ⟨⟨row, tail⟩, hrow, hslot⟩ := Option.bind_eq_some_iff.1 h
      cases hslot
      obtain ⟨hfits, rfl⟩ := (readCounted_eq_some_iff _).1 hrow
      exact ⟨by simpa using hfits, rfl⟩
    · cases h
  · rintro ⟨hfits, rfl⟩
    cases slot with
    | none => rfl
    | some row =>
      rw [slotBytes, List.cons_append, readSlot,
        (readCounted_eq_some_iff _).2 ⟨hfits row rfl, rfl⟩]
      rfl

theorem readSlots_eq_some_iff {count : Nat} {data : List UInt8}
    {slots : List (Option (List UInt8))} (rest : List UInt8) :
    readSlots count data = some (slots, rest) ↔
      slots.length = count ∧ (∀ row, some row ∈ slots → row.length < span 8) ∧
        data = slots.flatMap slotBytes ++ rest := by
  induction count generalizing data slots with
  | zero =>
    constructor
    · intro h
      cases h
      exact ⟨rfl, by simp, rfl⟩
    · rintro ⟨hlength, -, rfl⟩
      obtain rfl := List.length_eq_zero_iff.1 hlength
      rfl
  | succ count ih =>
    constructor
    · intro h
      obtain ⟨⟨slot, tail⟩, hslot, h⟩ := Option.bind_eq_some_iff.1 h
      obtain ⟨⟨others, tail'⟩, hothers, h⟩ := Option.bind_eq_some_iff.1 h
      cases h
      obtain ⟨hfits, rfl⟩ := (readSlot_eq_some_iff _).1 hslot
      obtain ⟨rfl, hrest, rfl⟩ := ih.1 hothers
      refine ⟨rfl, ?_, by rw [List.flatMap_cons, List.append_assoc]⟩
      intro row hrow
      rcases List.mem_cons.1 hrow with heq | hrow
      · exact hfits row heq.symm
      · exact hrest row hrow
    · rintro ⟨hlength, hfits, rfl⟩
      obtain ⟨slot, others, rfl⟩ := List.exists_cons_of_length_eq_add_one hlength
      have hslot : readSlot (slotBytes slot ++ (others.flatMap slotBytes ++ rest)) =
          some (slot, others.flatMap slotBytes ++ rest) :=
        (readSlot_eq_some_iff _).2 ⟨fun row hrow => hfits row (hrow ▸ List.mem_cons_self), rfl⟩
      have hothers : readSlots count (others.flatMap slotBytes ++ rest) = some (others, rest) :=
        ih.2 ⟨Nat.succ.inj hlength, fun row hrow => hfits row (List.mem_cons_of_mem _ hrow), rfl⟩
      rw [List.flatMap_cons, List.append_assoc]
      exact Option.bind_eq_some_iff.2
        ⟨_, hslot, Option.bind_eq_some_iff.2 ⟨_, hothers, rfl⟩⟩

/-- The bytes that decode to a snapshot are its own, with anything behind them. -/
theorem decodeSnapshot_eq_some_iff {data : List UInt8} {x : Snapshot} :
    decodeSnapshot data = some x ↔ x.Fits ∧ ∃ rest, data = encodeSnapshot x ++ rest := by
  constructor
  · intro h
    obtain ⟨⟨nameBytes, _⟩, hname, h⟩ := Option.bind_eq_some_iff.1 h
    obtain ⟨tableName, htext, h⟩ := Option.bind_eq_some_iff.1 h
    obtain ⟨⟨typeCodes, _⟩, htypes, h⟩ := Option.bind_eq_some_iff.1 h
    obtain ⟨⟨count, _⟩, hcount, h⟩ := Option.bind_eq_some_iff.1 h
    obtain ⟨⟨slots, rest⟩, hslots, h⟩ := Option.bind_eq_some_iff.1 h
    cases h
    obtain ⟨hnameFits, rfl⟩ := (readCounted_eq_some_iff _).1 hname
    obtain ⟨htypesFit, rfl⟩ := (readCounted_eq_some_iff _).1 htypes
    obtain ⟨hlength, hrows, rfl⟩ := (readSlots_eq_some_iff _).1 hslots
    obtain ⟨hslotsFit, rfl⟩ := (exists_count_iff _).1 ⟨count, hcount, hlength.symm⟩
    obtain rfl : Text.bytes tableName = nameBytes :=
      Text.decode_eq_ok_iff.1 (Outcome.toOption_eq_some_iff.1 htext)
    refine ⟨⟨hnameFits, htypesFit, hslotsFit, hrows⟩, rest, ?_⟩
    simp only [encodeSnapshot, List.append_assoc]
  · rintro ⟨hfits, rest, rfl⟩
    have hname := (readCounted_eq_some_iff (counted x.typeCodes ++
      (ofNat 8 x.slots.length ++ (x.slots.flatMap slotBytes ++ rest)))).2 ⟨hfits.name, rfl⟩
    have htypes := (readCounted_eq_some_iff
      (ofNat 8 x.slots.length ++ (x.slots.flatMap slotBytes ++ rest))).2 ⟨hfits.types, rfl⟩
    obtain ⟨count, hcount, hlength⟩ :=
      (exists_count_iff (x.slots.flatMap slotBytes ++ rest)).2 ⟨hfits.slots, rfl⟩
    have hslots := (readSlots_eq_some_iff rest).2 ⟨hlength.symm, hfits.rows, rfl⟩
    simp only [decodeSnapshot, encodeSnapshot, List.append_assoc, hname, htypes, hcount, hslots,
      Option.bind_eq_bind, Option.bind_some, Text.decode_bytes, Except.toOption]
    rfl

/-- A snapshot that is cut short is none. -/
theorem decodeSnapshot_take {x : Snapshot} (h : x.Fits) {n : Nat}
    (hn : n < (encodeSnapshot x).length) : decodeSnapshot ((encodeSnapshot x).take n) = none := by
  cases hdecode : decodeSnapshot ((encodeSnapshot x).take n) with
  | none => rfl
  | some y =>
    -- the snapshot that the shorter front holds would be read off the whole as well
    obtain ⟨hy, rest, htake⟩ := decodeSnapshot_eq_some_iff.1 hdecode
    have hshort : decodeSnapshot (encodeSnapshot x) = some y := by
      rw [← List.take_append_drop n (encodeSnapshot x), htake, List.append_assoc]
      exact decodeSnapshot_eq_some_iff.2 ⟨hy, _, rfl⟩
    have hwhole : decodeSnapshot (encodeSnapshot x) = some x :=
      decodeSnapshot_eq_some_iff.2 ⟨h, [], (List.append_nil _).symm⟩
    obtain rfl : x = y := Option.some.inj (hwhole.symm.trans hshort)
    have hlength := congrArg List.length htake
    rw [List.length_take, List.length_append] at hlength
    omega

end RowFlags.Stored
