import RowFlags.CommandLine

/-!
# Settings as arguments

Every setting can be asked for: the arguments that write its numbers in decimal digits are read as
the settings (`Settings.read_arguments`). Digits hold no dash and no sign, so that none of them is
taken for an option.
-/

set_option autoImplicit false

namespace RowFlags.CommandLine

theorem all_isDigit_toDigits (n : Nat) : (Nat.toDigits 10 n).all Char.isDigit = true :=
  List.all_eq_true.2 fun _ hc => Nat.isDigit_of_mem_toDigits (by decide) (by decide) hc

/-- A number starts with a digit. -/
theorem exists_toDigits_eq_cons (n : Nat) :
    ∃ c rest, Nat.toDigits 10 n = c :: rest ∧ c.isDigit = true := by
  obtain ⟨c, rest, heq⟩ := List.exists_cons_of_ne_nil (Nat.toDigits_ne_nil (n := n) (b := 10))
  have hall := all_isDigit_toDigits n
  rw [heq, List.all_cons, Bool.and_eq_true] at hall
  exact ⟨c, rest, heq, hall.1⟩

theorem natOfDigits?_toDigits (n : Nat) : natOfDigits? (Nat.toDigits 10 n) = some n := by
  rw [natOfDigits?, if_pos (all_isDigit_toDigits n), Nat.ofDigitChars_ten_toDigits]
  exact Nat.toDigits_ne_nil

/-- A number of 32 bits is read from its decimal digits. -/
theorem number?_repr (n : UInt32) : number? n.toNat.repr = some n := by
  obtain ⟨c, rest, heq, hdigit⟩ := exists_toDigits_eq_cons n.toNat
  have hread := natOfDigits?_toDigits n.toNat
  unfold number?
  rw [Nat.repr, String.toList_ofList, heq]
  rw [heq] at hread
  -- neither sign is a digit
  split
  · next hsign =>
    obtain ⟨rfl, -⟩ := List.cons.inj hsign
    cases hdigit
  · next hsign =>
    obtain ⟨rfl, -⟩ := List.cons.inj hsign
    cases hdigit
  · rw [hread]
    show (if n.toNat < UInt32.size then some n.toNat.toUInt32 else none) = some n
    rw [if_pos n.toNat_lt, Nat.toUInt32_eq, UInt32.ofNat_toNat]

/-- Decimal digits are a word, and no option. -/
theorem ofArgument_repr (n : Nat) : Token.ofArgument n.repr = [.word n.repr] := by
  obtain ⟨c, rest, heq, hdigit⟩ := exists_toDigits_eq_cons n
  have hdash : c ≠ '-' := by
    rintro rfl
    cases hdigit
  unfold Token.ofArgument
  rw [Nat.repr, String.toList_ofList, heq]
  split
  · next hoption => exact absurd (List.cons.inj hoption).1 hdash
  · next hoption => exact absurd (List.cons.inj hoption).1 hdash
  · next hoption => exact absurd (List.cons.inj hoption).1 hdash
  · rfl

/-- The arguments that ask for settings. -/
def Settings.arguments (s : Settings) : List String :=
  ["--articles", s.articles.toNat.repr, "--publish-every", s.publishEvery.toNat.repr] ++
    (if s.onDemand then ["--on-demand"] else []) ++ if s.debug then ["--debug"] else []

/-- What the settings' arguments are taken apart into. -/
theorem tokens_arguments (s : Settings) :
    s.arguments.flatMap Token.ofArgument =
      [.option (.amount .articles) none, .word s.articles.toNat.repr,
        .option (.amount .publishEvery) none, .word s.publishEvery.toNat.repr] ++
      (if s.onDemand then [.option (.switch .onDemand) none] else []) ++
      if s.debug then [.option (.switch .debug) none] else [] := by
  obtain ⟨articles, every, onDemand, debug⟩ := s
  have harticles : Token.ofArgument "--articles" = [.option (.amount .articles) none] := by decide
  have hevery : Token.ofArgument "--publish-every" = [.option (.amount .publishEvery) none] := by
    decide
  have honDemand : Token.ofArgument "--on-demand" = [.option (.switch .onDemand) none] := by decide
  have hdebug : Token.ofArgument "--debug" = [.option (.switch .debug) none] := by decide
  cases onDemand <;> cases debug <;>
    simp [Settings.arguments, harticles, hevery, honDemand, hdebug, ofArgument_repr]

/-- An amount that was not given before is taken. -/
theorem Reading.finish_amount {r : Reading} {a : Amount} (h : .amount a ∉ r.given) (n : UInt32)
    (rest : List Token) :
    finish (.option (.amount a) none :: .word n.toNat.repr :: rest) r =
      finish rest ⟨.amount a :: r.given, r.settings.put n a⟩ := by
  rw [finish, takeAmount, note, if_neg h, number?_repr]
  rfl

/-- The arguments of settings are read as the settings. -/
theorem Settings.read_arguments (s : Settings) : read s.arguments = .ok (.walkthrough s) := by
  obtain ⟨articles, every, onDemand, debug⟩ := s
  rw [read, tokens_arguments, List.append_assoc, List.cons_append, List.cons_append,
    Reading.finish_amount (by decide), List.cons_append, List.cons_append,
    Reading.finish_amount (by simp)]
  cases onDemand <;> cases debug <;> rfl

end RowFlags.CommandLine
