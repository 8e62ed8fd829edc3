import Bindery.Proofs.FilledTemplates

/-!
# Reading a template

`Reads` cuts a template into characters that stand for themselves and placeholders: from left to
right a placeholder is taken wherever one starts, and any other brace stands for itself. Every text
is read in one way only (`reads_unique`), before it is known which words have a value; to fill a
template is to put the values in the places of what was read (`fill_eq_of_reads`).
-/

namespace Bindery.Text

/-- A word that makes a placeholder when it stands between braces. -/
def IsWord (word : List Char) : Prop := word ≠ [] ∧ ∀ c ∈ word, isWordChar c = true

instance : DecidablePred IsWord := fun word =>
  decidable_of_iff ((!word.isEmpty && word.all isWordChar) = true) (by simp [IsWord])

inductive Piece where
  | char (c : Char)
  | slot (word : List Char)

namespace Piece

def word? : Piece → Option String
  | .char _ => none
  | .slot word => some (String.ofList word)

def source : Piece → List Char
  | .char c => [c]
  | .slot word => '{' :: word ++ ['}']

/-- A placeholder that has no value stays as it is. -/
def filled (vars : Vars) : Piece → List Char
  | .char c => [c]
  | .slot word =>
    match vars.get? (String.ofList word) with
    | some value => value.toList
    | none => (Piece.slot word).source

end Piece

inductive Reads : List Char → List Piece → Prop where
  | done : Reads [] []
  | slot {word rest : List Char} {ps : List Piece} :
      IsWord word → Reads rest ps → Reads ('{' :: word ++ '}' :: rest) (.slot word :: ps)
  | char {c : Char} {rest : List Char} {ps : List Piece} :
      (∀ word after, IsWord word → c :: rest ≠ '{' :: word ++ '}' :: after) → Reads rest ps →
        Reads (c :: rest) (.char c :: ps)

variable {vars : Vars} {l rest word word' after after' pending : List Char} {ps ps' : List Piece}

/-! ### Words -/

/-- The word of a placeholder goes as far as the first closing brace. -/
theorem placeholder_inj (h : IsWord word) (h' : IsWord word')
    (heq : word ++ '}' :: after = word' ++ '}' :: after') : word = word' ∧ after = after' := by
  have hstop : ∀ (w a : List Char), IsWord w → (w ++ '}' :: a).takeWhile isWordChar = w := by
    intro w a hw
    rw [List.takeWhile_append_of_pos hw.2, List.takeWhile_cons_of_neg (by decide), List.append_nil]
  have hword : word = word' := by rw [← hstop word after h, heq, hstop word' after' h']
  subst hword
  exact ⟨rfl, (List.cons.inj (List.append_cancel_left heq)).2⟩

/-! ### Reading -/

theorem reads_unique (h : Reads l ps) (h' : Reads l ps') : ps = ps' := by
  induction h generalizing ps' with
  | done => cases h'; rfl
  | @slot word rest ps hword _ ih =>
    generalize hl : '{' :: word ++ '}' :: rest = l at h'
    cases h' with
    | done => cases hl
    | @slot word' rest' ps' hword' h' =>
      obtain ⟨rfl, rfl⟩ := placeholder_inj hword hword' (List.cons.inj hl).2
      rw [ih h']
    | char hnone _ => exact absurd hl.symm (hnone word rest hword)
  | @char c rest ps hnone _ ih =>
    generalize hl : c :: rest = l at h'
    cases h' with
    | done => cases hl
    | slot hword' _ => exact absurd hl (hnone _ _ hword')
    | char _ h' =>
      obtain ⟨rfl, rfl⟩ := List.cons.inj hl
      rw [ih h']

theorem exists_reads (l : List Char) : ∃ ps, Reads l ps := by
  induction hn : l.length using Nat.strongRecOn generalizing l with
  | _ n ih =>
    cases l with
    | nil => exact ⟨[], .done⟩
    | cons c rest =>
      by_cases hslot : ∃ word after, IsWord word ∧ c :: rest = '{' :: word ++ '}' :: after
      · obtain ⟨word, after, hword, heq⟩ := hslot
        have hlt : after.length < n := by
          rw [← hn, heq]
          simp
          omega
        obtain ⟨ps, hps⟩ := ih _ hlt after rfl
        rw [heq]
        exact ⟨_, .slot hword hps⟩
      · obtain ⟨ps, hps⟩ := ih rest.length (by simp [← hn]) rest rfl
        refine ⟨_, .char (fun word after hword heq => hslot ⟨word, after, hword, heq⟩) hps⟩

theorem Reads.text (hl : '{' ∉ l) (h : Reads rest ps) : Reads (l ++ rest) (l.map .char ++ ps) := by
  induction l with
  | nil => exact h
  | cons c l ih =>
    obtain ⟨hc, hl⟩ := List.ne_and_not_mem_of_not_mem_cons hl
    refine .char (fun word after _ heq => hc ?_) (ih hl)
    exact (List.cons.inj heq).1.symm

/-- Nothing of the template is lost. -/
theorem flatMap_source (h : Reads l ps) : ps.flatMap Piece.source = l := by
  induction h with
  | done => rfl
  | slot _ _ ih => simp [Piece.source, ih]
  | char _ _ ih => simp [Piece.source, ih]

/-! ### Filling what was read -/

theorem filled_slot (vars : Vars) (word : List Char) :
    Piece.filled vars (.slot word) = placeholderText vars word := rfl

theorem filled_slot_of_get? {word value : String} (h : vars.get? word = some value) :
    Piece.filled vars (.slot word.toList) = value.toList := by
  rw [Piece.filled, String.ofList_toList, h]

/-- An opening brace is given back when what follows it is no placeholder. -/
theorem fillFrom_pending (hpending : ∀ c ∈ pending, isWordChar c = true)
    (hnone : ∀ word after, IsWord word → pending.reverse ++ l ≠ word ++ '}' :: after) :
    fillFrom vars (some pending) l = '{' :: pending.reverse ++ fillFrom vars none l := by
  induction l generalizing pending with
  | nil => simp [fillFrom]
  | cons c rest ih =>
    rw [fillFrom, fillFrom]
    by_cases hc : isWordChar c = true
    · have hopen : c ≠ '{' := by
        rintro rfl
        revert hc
        decide
      rw [if_pos hc, if_neg hopen,
        ih (List.forall_mem_cons.2 ⟨hc, hpending⟩) (by simpa using hnone)]
      simp
    · rw [if_neg hc]
      have hclose : ¬ (c = '}' && !pending.isEmpty) = true := by
        intro h
        rw [Bool.and_eq_true, decide_eq_true_eq] at h
        obtain ⟨rfl, hne⟩ := h
        refine hnone pending.reverse rest ⟨by simpa using hne, ?_⟩ rfl
        simpa using hpending
      rw [if_neg hclose]
      split <;> simp

theorem fillFrom_char {c : Char}
    (hnone : ∀ word after, IsWord word → c :: rest ≠ '{' :: word ++ '}' :: after) :
    fillFrom vars none (c :: rest) = c :: fillFrom vars none rest := by
  rw [fillFrom]
  split
  next hc =>
    subst hc
    rw [fillFrom_pending (List.forall_mem_nil _)]
    · rfl
    · intro word after hword heq
      exact hnone word after hword (congrArg _ heq)
  next => rfl

theorem fillFrom_of_reads (h : Reads l ps) :
    fillFrom vars none l = ps.flatMap (Piece.filled vars) := by
  induction h with
  | done => rfl
  | slot hword _ ih =>
    rw [fillFrom_placeholder hword.1 hword.2, ih, List.flatMap_cons, filled_slot]
  | char hnone _ ih => rw [fillFrom_char hnone, ih, List.flatMap_cons]; rfl

theorem fill_eq_of_reads {t : String} (h : Reads t.toList ps) (vars : Vars) :
    (fill t vars).toList = ps.flatMap (Piece.filled vars) := by
  rw [fill, String.toList_ofList, fillFrom_of_reads h]

end Bindery.Text
