/-!
# Cutting and joining text

White space, words, lines, and joining with a separator. `join_pieces` says that the pieces between
occurrences of a separator give the text back when they are joined with it, and `lines_join` that
texts that are joined by line breaks keep their lines.
-/

namespace Bindery.Text

/-- The characters of the `White_Space` property. -/
def isBlank (c : Char) : Bool :=
  (9 ≤ c.toNat && c.toNat ≤ 13) || c.toNat == 0x20 || c.toNat == 0x85 || c.toNat == 0xA0 ||
  c.toNat == 0x1680 || (0x2000 ≤ c.toNat && c.toNat ≤ 0x200A) || c.toNat == 0x2028 ||
  c.toNat == 0x2029 || c.toNat == 0x202F || c.toNat == 0x205F || c.toNat == 0x3000

def trimChars (l : List Char) : List Char :=
  ((l.dropWhile isBlank).reverse.dropWhile isBlank).reverse

/-- The text without blanks at either end. -/
def trim (s : String) : String := String.ofList (trimChars s.toList)

theorem toList_pushn (s : String) (c : Char) (n : Nat) :
    (s.pushn c n).toList = s.toList ++ List.replicate n c := by
  induction n with
  | zero => exact (List.append_nil _).symm
  | succ n ih =>
    have hpush : s.pushn c (n + 1) = (s.pushn c n).push c := rfl
    rw [hpush, String.toList_push, ih, List.replicate_succ', List.append_assoc]

/-- The pieces between the characters that `p` holds of; always at least one. -/
def pieces (p : Char → Bool) : List Char → List (List Char)
  | [] => [[]]
  | c :: rest =>
    if p c then [] :: pieces p rest
    else
      match pieces p rest with
      | [] => [[c]]
      | w :: ws => (c :: w) :: ws

theorem pieces_ne_nil (p : Char → Bool) (l : List Char) : pieces p l ≠ [] := by
  cases l with
  | nil => simp [pieces]
  | cons c rest =>
    rw [pieces]
    split
    · simp
    · split <;> simp

theorem pieces_of_none {p : Char → Bool} {s : List Char} (hs : ∀ c ∈ s, p c = false) :
    pieces p s = [s] := by
  induction s with
  | nil => rfl
  | cons c s ih =>
    rw [List.forall_mem_cons] at hs
    simp [pieces, hs.1, ih hs.2]

/-- No piece holds a separator. -/
theorem eq_false_of_mem_pieces {p : Char → Bool} {l w : List Char} (h : w ∈ pieces p l) :
    ∀ c ∈ w, p c = false := by
  induction l generalizing w with
  | nil =>
    obtain rfl := List.mem_singleton.1 h
    nofun
  | cons d rest ih =>
    rw [pieces] at h
    split at h
    next =>
      rcases List.mem_cons.1 h with rfl | h
      · nofun
      · exact ih h
    next hd =>
      cases hrest : pieces p rest with
      | nil => exact absurd hrest (pieces_ne_nil p rest)
      | cons v ws =>
        rw [hrest] at h ih
        rcases List.mem_cons.1 h with rfl | h
        · exact List.forall_mem_cons.2 ⟨by simpa using hd, ih (List.mem_cons_self ..)⟩
        · exact ih (List.mem_cons_of_mem _ h)

/-- A separator ends one piece and begins the next. -/
theorem pieces_append_of_sep {p : Char → Bool} {c : Char} (hc : p c = true) (l r : List Char) :
    pieces p (l ++ c :: r) = pieces p l ++ pieces p r := by
  induction l with
  | nil => simp [pieces, hc]
  | cons d rest ih =>
    rw [List.cons_append, pieces, pieces, ih]
    split
    next => rfl
    next =>
      cases hrest : pieces p rest with
      | nil => exact absurd hrest (pieces_ne_nil p rest)
      | cons w ws => rfl

theorem beq_eq_false_of_not_mem {c : Char} {l : List Char} (h : c ∉ l) :
    ∀ a ∈ l, (a == c) = false := by
  intro a ha
  rw [beq_eq_false_iff_ne]
  rintro rfl
  exact h ha

def lines (s : String) : List String := (pieces (· == '\n') s.toList).map String.ofList

/-- The longest stretches without blanks. -/
def words (s : String) : List String :=
  ((pieces isBlank s.toList).filter (!·.isEmpty)).map String.ofList

/-- The texts one after another with `sep` between neighbours. -/
def join (sep : String) : List String → String
  | [] => ""
  | [a] => a
  | a :: b :: rest => a ++ sep ++ join sep (b :: rest)

@[simp]
theorem join_nil (sep : String) : join sep [] = "" := rfl

@[simp]
theorem join_singleton (sep a : String) : join sep [a] = a := rfl

theorem join_cons_of_ne_nil (sep a : String) {l : List String} (h : l ≠ []) :
    join sep (a :: l) = a ++ sep ++ join sep l := by
  cases l with
  | nil => exact absurd rfl h
  | cons b l => rfl

/-- The pieces between occurrences of `c`, joined with `c`, are the text. -/
theorem join_pieces (c : Char) (l : List Char) :
    join (String.ofList [c]) ((pieces (· == c) l).map String.ofList) = String.ofList l := by
  induction l with
  | nil => rfl
  | cons d rest ih =>
    rw [pieces]
    split
    next h =>
      have hd : d = c := by simpa using h
      rw [List.map_cons, join_cons_of_ne_nil _ _ (by simpa using pieces_ne_nil _ rest), ih, hd,
        ← String.ofList_append, ← String.ofList_append]
      rfl
    next h =>
      cases hp : pieces (· == c) rest with
      | nil => exact absurd hp (pieces_ne_nil _ rest)
      | cons w ws =>
        rw [hp] at ih
        cases ws with
        | nil =>
          simp only [List.map_cons, List.map_nil, join_singleton] at ih ⊢
          rw [String.ofList_inj.1 ih]
        | cons v ws =>
          simp only [List.map_cons, join] at ih ⊢
          have hcons : ∀ m : List Char, String.ofList (d :: m) = String.ofList [d] ++ String.ofList m :=
            fun m => by rw [← String.ofList_append]; rfl
          rw [hcons w, hcons rest, ← ih, String.append_assoc, String.append_assoc, String.append_assoc]

/-! ### Lines -/

section
variable {s line : String} {texts : List String}

theorem lines_ne_nil (s : String) : lines s ≠ [] := by
  rw [lines, ne_eq, List.map_eq_nil_iff]
  exact pieces_ne_nil _ _

theorem join_lines (s : String) : join "\n" (lines s) = s :=
  (join_pieces '\n' s.toList).trans String.ofList_toList

theorem not_mem_of_mem_lines (h : line ∈ lines s) : '\n' ∉ line.toList := by
  obtain ⟨w, hw, rfl⟩ := List.mem_map.1 h
  intro hbreak
  rw [String.toList_ofList] at hbreak
  simpa using eq_false_of_mem_pieces hw _ hbreak

theorem lines_of_not_mem (h : '\n' ∉ s.toList) : lines s = [s] := by
  rw [lines, pieces_of_none (beq_eq_false_of_not_mem h), List.map_singleton, String.ofList_toList]

theorem lines_append_break (s t : String) : lines (s ++ "\n" ++ t) = lines s ++ lines t := by
  have hsplit : (s ++ "\n" ++ t).toList = s.toList ++ '\n' :: t.toList := by simp
  rw [lines, hsplit, pieces_append_of_sep (p := (· == '\n')) (beq_self_eq_true '\n'),
    List.map_append]
  rfl

/-- What follows a line break begins a line of its own. -/
theorem lines_append_of_break {t : String} (h : s = t ++ "\n") (u : String) :
    lines (s ++ u) = (lines s).dropLast ++ lines u := by
  have hself : lines (t ++ "\n") = lines t ++ [""] := by
    rw [← String.append_empty (s := t ++ "\n"), lines_append_break]
    rfl
  rw [h, lines_append_break, hself, List.dropLast_concat]

theorem lines_join (hne : texts ≠ []) : lines (join "\n" texts) = texts.flatMap lines := by
  induction texts with
  | nil => exact absurd rfl hne
  | cons s rest ih =>
    by_cases hrest : rest = []
    · simp [hrest]
    · rw [join_cons_of_ne_nil _ _ hrest, lines_append_break, ih hrest, List.flatMap_cons]

end

end Bindery.Text
