import Mathlib.Data.List.Forall2
import Bindery.Json.Reading
import Bindery.Json.Writer

/-!
# Written strings

A string that was written is read back as it was. Every character is escaped by itself and comes
back as one piece, since the numbers that stand for control characters are no surrogates.
-/

namespace Bindery.Json

theorem toList_stringText (s : String) :
    (stringText s).toList = '"' :: (s.toList.flatMap escapeChar ++ ['"']) := by
  simp [stringText]

namespace Reading

/-- What stands for a character: the character, or its number if it is a control character. -/
inductive Piece.Shows : Piece → Char → Prop
  | char (c : Char) : Shows (.char c) c
  | unit (c : Char) : c.toNat < 0x20 → Shows (.unit c.toNat) c

/-- A character is written as a letter behind a backslash, by its number, or as it is. -/
theorem escapeChar_cases (c : Char) :
    (∃ e, escapeChar c = ['\\', e] ∧ e ≠ 'u' ∧ escape? e = some c) ∨
      (escapeChar c = ['\\', 'u', '0', '0', hexDigit (c.toNat / 16), hexDigit c.toNat] ∧
        c.toNat < 0x20) ∨
      (escapeChar c = [c] ∧ c ≠ '"' ∧ c ≠ '\\' ∧ ¬ c.toNat < 0x20) := by
  unfold escapeChar
  split_ifs with hquote hslash hb hf hn hr ht hcontrol
  case neg => exact .inr (.inr ⟨rfl, hquote, hslash, hcontrol⟩)
  on_goal 8 => exact .inr (.inl ⟨rfl, hcontrol⟩)
  all_goals
    subst c
    exact .inl ⟨_, rfl, by decide, rfl⟩

theorem unit?_hexDigit {n : Nat} (h : n < 0x20) :
    unit? '0' '0' (hexDigit (n / 16)) (hexDigit n) = some n := by
  have hall : ∀ m : Fin 0x20, unit? '0' '0' (hexDigit (m / 16)) (hexDigit m) = some m.val := by
    decide
  exact hall ⟨n, h⟩

theorem pieces?_escapeChar (c : Char) : ∃ p : Piece, p.Shows c ∧
    ∀ {text ps rest}, pieces? text = some (ps, rest) →
      pieces? (escapeChar c ++ text) = some (p :: ps, rest) := by
  obtain ⟨e, hc, hletter, he⟩ | ⟨hc, hcontrol⟩ | ⟨hc, hquote, hslash, hcontrol⟩ :=
    escapeChar_cases c
  · refine ⟨_, .char c, fun h => ?_⟩
    simp [hc, pieces?, hletter, he, h]
  · refine ⟨_, .unit c hcontrol, fun h => ?_⟩
    simp [hc, pieces?, unit?_hexDigit hcontrol, h]
  · refine ⟨_, .char c, fun h => ?_⟩
    -- the reader takes a character as it is only if neither a quote nor a backslash stands there
    simp [hc, pieces?, hslash, hcontrol, h]

theorem pieces?_written (l rest : List Char) : ∃ ps, List.Forall₂ Piece.Shows ps l ∧
    pieces? (l.flatMap escapeChar ++ '"' :: rest) = some (ps, rest) := by
  induction l with
  | nil => exact ⟨[], .nil, rfl⟩
  | cons c l ih =>
    obtain ⟨ps, hps, hrest⟩ := ih
    obtain ⟨p, hp, hc⟩ := pieces?_escapeChar c
    refine ⟨p :: ps, .cons hp hps, ?_⟩
    rw [List.flatMap_cons, List.append_assoc]
    exact hc hrest

/-- The number of a control character stands for itself, whatever follows. -/
theorem chars?_unit {n : Nat} (h : n < 0x20) (ps : List Piece) :
    chars? (.unit n :: ps) = (chars? ps).map (Char.ofNat n :: ·) := by
  have hhigh : isHighSurrogate n = false := by
    simp only [isHighSurrogate, Bool.and_eq_false_iff, decide_eq_false_iff_not]
    omega
  have hlow : isLowSurrogate n = false := by
    simp only [isLowSurrogate, Bool.and_eq_false_iff, decide_eq_false_iff_not]
    omega
  cases ps with
  | nil => simp [chars?, hhigh, hlow]
  | cons p ps => cases p <;> simp [chars?, hhigh, hlow]

theorem chars?_of_shows {ps : List Piece} {l : List Char} (h : List.Forall₂ Piece.Shows ps l) :
    chars? ps = some l := by
  induction h with
  | nil => rfl
  | cons hp _ ih =>
    cases hp with
    | char _ => rw [chars?, ih]; rfl
    | unit _ hcontrol => rw [chars?_unit hcontrol, ih, Option.map_some, Char.ofNat_toNat]

theorem string?_written (s : String) (rest : List Char) :
    string? (s.toList.flatMap escapeChar ++ '"' :: rest) = some (some s, rest) := by
  obtain ⟨ps, hshows, hpieces⟩ := pieces?_written s.toList rest
  simp only [string?, hpieces, Option.map_some, chars?_of_shows hshows, String.ofList_toList]

end Reading

end Bindery.Json
