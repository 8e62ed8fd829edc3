import Bindery.Proofs.WrittenStrings

/-!
# Written text

The pretty text of a value is read back as the value, if no more containers are open at a time than
a reader has room for: `Reading.ofText_pretty`. This is about values without numbers; `Plain` says
of those how deep they go.

The induction follows the value. `Reading.ReadAs` is what it carries: the text of a value starts
with the value at once, and is read as the value whatever follows, with two steps for each of its
characters.
-/

namespace Bindery.Json

/-- Values without numbers in which at most `n` containers are open at a time. -/
inductive Plain : Nat → Json → Prop
  | null {n : Nat} : Plain n .null
  | bool {n : Nat} (b : Bool) : Plain n (.bool b)
  | string {n : Nat} (s : String) : Plain n (.string s)
  | array {n : Nat} {items : List Json} : (∀ v ∈ items, Plain n v) → Plain (n + 1) (.array items)
  | object {n : Nat} {members : List (String × Json)} :
      (∀ e ∈ members, Plain n e.2) → Plain (n + 1) (.object members)

theorem Plain.mono {n m : Nat} {v : Json} (h : Plain n v) (hle : n ≤ m) : Plain m v := by
  induction h generalizing m with
  | null => exact .null
  | bool b => exact .bool b
  | string s => exact .string s
  | array _ ih =>
    obtain ⟨m, rfl⟩ := Nat.exists_eq_add_of_lt hle
    exact .array fun v hv => ih v hv (by omega)
  | object _ ih =>
    obtain ⟨m, rfl⟩ := Nat.exists_eq_add_of_lt hle
    exact .object fun e he => ih e he (by omega)

/-! ### Layout -/

def IsBlank (s : String) : Prop := ∀ c ∈ s.toList, c = ' ' ∨ c = '\n'

theorem isBlank_pushn (n : Nat) : IsBlank ("\n".pushn ' ' n) := by
  intro c hc
  rw [Text.toList_pushn, List.mem_append] at hc
  rcases hc with hbreak | hspace
  · exact .inr (by simpa using hbreak)
  · exact .inl (List.eq_of_mem_replicate hspace)

theorem bracketed_cons (depth : Nat) (opening closing s : String) (l : List String) :
    ∃ gap close, IsBlank gap ∧ IsBlank close ∧ bracketed depth opening closing (s :: l) =
      opening ++ gap ++ Text.join ("," ++ gap) (s :: l) ++ close ++ closing := by
  refine ⟨"\n".pushn ' ' (2 * depth) ++ "  ", "\n".pushn ' ' (2 * depth), ?_, isBlank_pushn _, ?_⟩
  · intro c hc
    rw [String.toList_append, List.mem_append] at hc
    refine hc.elim (isBlank_pushn _ c) fun h => .inl ?_
    simpa using h
  · simp only [bracketed, List.isEmpty_cons, Bool.false_eq_true, if_false, String.append_assoc]

/-- A member as it is written, with `text` for its value. -/
def memberText (text : Json → String) (e : String × Json) : String :=
  stringText e.1 ++ ": " ++ text e.2

theorem prettyItems_eq_map (depth : Nat) (l : List Json) :
    prettyItems depth l = l.map (prettyAt depth) := by
  induction l with
  | nil => rfl
  | cons v rest ih => rw [prettyItems, ih, List.map_cons]

theorem prettyMembers_eq_map (depth : Nat) (l : List (String × Json)) :
    prettyMembers depth l = l.map (memberText (prettyAt depth)) := by
  induction l with
  | nil => rfl
  | cons e rest ih => rw [prettyMembers, ih, List.map_cons, memberText]

theorem toList_join_cons (sep s t : String) (l : List String) :
    (Text.join sep (s :: t :: l)).toList =
      s.toList ++ (sep.toList ++ (Text.join sep (t :: l)).toList) := by
  rw [Text.join_cons_of_ne_nil _ _ (List.cons_ne_nil t l), String.toList_append,
    String.toList_append, List.append_assoc]

theorem toList_memberText (text : Json → String) (e : String × Json) :
    (memberText text e).toList =
      '"' :: (e.1.toList.flatMap escapeChar ++ '"' :: ':' :: ' ' :: (text e.2).toList) := by
  simp [memberText, toList_stringText]

namespace Reading

/-! ### Blanks -/

/-- The text starts with something at once, and not with the end of a container. -/
def Opens (text : List Char) : Prop :=
  ∃ c tail, text = c :: tail ∧ c ≠ ']' ∧ c ≠ '}' ∧ skipSpace [c] = [c]

namespace Opens
variable {text : List Char}

theorem append (h : Opens text) (rest : List Char) : Opens (text ++ rest) := by
  obtain ⟨c, tail, rfl, hc⟩ := h
  exact ⟨c, tail ++ rest, rfl, hc⟩

theorem join {sep s : String} (h : Opens s.toList) (l : List String) :
    Opens (Text.join sep (s :: l)).toList := by
  cases l with
  | nil => exact h
  | cons t l =>
    rw [toList_join_cons]
    exact h.append _

theorem memberText (text : Json → String) (e : String × Json) :
    Opens (memberText text e).toList :=
  ⟨'"', _, toList_memberText text e, by decide, by decide, rfl⟩

theorem length_pos (h : Opens text) : 0 < text.length := by
  obtain ⟨c, tail, rfl, -⟩ := h
  rw [List.length_cons]
  omega

theorem skipSpace_eq (h : Opens text) : skipSpace text = text := by
  obtain ⟨c, tail, rfl, -, -, hc⟩ := h
  rw [skipSpace, List.dropWhile_cons] at hc ⊢
  split at hc
  next => cases hc
  next hblank => rw [if_neg hblank]

end Opens

theorem skipSpace_append {gap : List Char} (h : ∀ c ∈ gap, c = ' ' ∨ c = '\n') (text : List Char) :
    skipSpace (gap ++ text) = skipSpace text := by
  induction gap with
  | nil => rfl
  | cons c gap ih =>
    obtain ⟨hc, hgap⟩ := List.forall_mem_cons.1 h
    have hskip : skipSpace (c :: (gap ++ text)) = skipSpace (gap ++ text) := by
      rcases hc with rfl | rfl <;> rfl
    rw [List.cons_append, hskip, ih hgap]

theorem skipSpace_gap {gap : String} {text : List Char} (hgap : IsBlank gap) (h : Opens text) :
    skipSpace (gap.toList ++ text) = text :=
  (skipSpace_append hgap text).trans h.skipSpace_eq

/-! ### One step of the reader -/

section
variable {fuel room : Nat} {s t u rest : List Char} {r : Reading} {items : List Reading}
  {members : List (Option String × Reading)}

theorem readValue_congr (h : skipSpace s = skipSpace t) :
    readValue fuel room s = readValue fuel room t := by
  cases fuel with
  | zero => rfl
  | succ fuel => simp only [readValue, h]

theorem readValue_string (text : String) :
    readValue (fuel + 1) room ('"' :: (text.toList.flatMap escapeChar ++ '"' :: rest)) =
      (.string text, rest) := by
  have hskip : ∀ l, skipSpace ('"' :: l) = '"' :: l := fun _ => rfl
  simp only [readValue, hskip, string?_written]

theorem readValue_array (hs : skipSpace s = t) (ht : Opens t)
    (h : readItems fuel room t = (items, true, rest)) :
    readValue (fuel + 1) (room + 1) ('[' :: s) = (.array items true, rest) := by
  obtain ⟨c, tail, rfl, hc, -⟩ := ht
  have hskip : ∀ l, skipSpace ('[' :: l) = '[' :: l := fun _ => rfl
  simp only [readValue, hskip, hs]
  split
  next hend => exact absurd (List.cons.inj hend).1 hc
  next =>
    simp only [Nat.add_sub_cancel, h]
    rfl

theorem readValue_object (hs : skipSpace s = t) (ht : Opens t)
    (h : readMembers fuel room t = (members, true, rest)) :
    readValue (fuel + 1) (room + 1) ('{' :: s) = (.object members true, rest) := by
  obtain ⟨c, tail, rfl, -, hc, -⟩ := ht
  have hskip : ∀ l, skipSpace ('{' :: l) = '{' :: l := fun _ => rfl
  simp only [readValue, hskip, hs]
  split
  next hend => exact absurd (List.cons.inj hend).1 hc
  next =>
    simp only [Nat.add_sub_cancel, h]
    rfl

theorem readItems_last (hv : readValue fuel room s = (r, t)) (ht : skipSpace t = ']' :: rest) :
    readItems (fuel + 1) room s = ([r], true, rest) := by
  simp only [readItems, hv, ht]

theorem readItems_more (hv : readValue fuel room s = (r, ',' :: t)) (ht : skipSpace t = u)
    (hu : Opens u) (h : readItems fuel room u = (items, true, rest)) :
    readItems (fuel + 1) room s = (r :: items, true, rest) := by
  obtain ⟨c, tail, rfl, hc, -⟩ := hu
  have hskip : ∀ l, skipSpace (',' :: l) = ',' :: l := fun _ => rfl
  simp only [readItems, hv, hskip, ht]
  split
  next hend => exact absurd (List.cons.inj hend).1 hc
  next => simp only [h]

theorem readMembers_last {key : String} (hv : readValue fuel room s = (r, t))
    (ht : skipSpace t = '}' :: rest) :
    readMembers (fuel + 1) room ('"' :: (key.toList.flatMap escapeChar ++ '"' :: ':' :: s)) =
      ([(some key, r)], true, rest) := by
  have hskip : ∀ l, skipSpace (':' :: l) = ':' :: l := fun _ => rfl
  simp only [readMembers, string?_written, hskip, hv, ht]

theorem readMembers_more {key : String} (hv : readValue fuel room s = (r, ',' :: t))
    (h : readMembers fuel room (skipSpace t) = (members, true, rest)) :
    readMembers (fuel + 1) room ('"' :: (key.toList.flatMap escapeChar ++ '"' :: ':' :: s)) =
      ((some key, r) :: members, true, rest) := by
  have hcolon : ∀ l, skipSpace (':' :: l) = ':' :: l := fun _ => rfl
  have hcomma : ∀ l, skipSpace (',' :: l) = ',' :: l := fun _ => rfl
  simp only [readMembers, string?_written, hcolon, hcomma, hv, h]

end

/-! ### Written values -/

/-- Where up to `room` containers may be opened, the text is read as the value. -/
structure ReadAs (room : Nat) (text : String) (v : Json) : Prop where
  opens : Opens text.toList
  read : ∀ fuel rest, 2 * text.toList.length ≤ fuel →
    readValue fuel room (text.toList ++ rest) = (ofJson v, rest)

section
variable {room fuel : Nat} {text : Json → String} {gap close : String} {v : Json}
  {items : List Json} {e : String × Json} {members : List (String × Json)}

theorem ReadAs.of_cons {s : String} (c : Char) (tail : List Char) (hs : s.toList = c :: tail)
    (hc : c ≠ ']' ∧ c ≠ '}' ∧ skipSpace [c] = [c])
    (hread : ∀ fuel rest, 2 * tail.length < fuel →
      readValue (fuel + 1) room (c :: (tail ++ rest)) = (ofJson v, rest)) : ReadAs room s v := by
  refine ⟨⟨c, tail, hs, hc⟩, fun fuel rest hfuel => ?_⟩
  rw [hs, List.length_cons] at hfuel
  cases fuel with
  | zero => omega
  | succ fuel =>
    rw [hs, List.cons_append]
    exact hread fuel rest (by omega)

/-- Items are read one by one; each takes a step of its own besides those for its characters. -/
theorem readItems_written (hgap : IsBlank gap) (hclose : IsBlank close)
    (h : ∀ w ∈ v :: items, ReadAs room (text w) w)
    (hfuel : 2 * (Text.join ("," ++ gap) ((v :: items).map text)).toList.length < fuel)
    (rest : List Char) :
    readItems fuel room ((Text.join ("," ++ gap) ((v :: items).map text)).toList ++
      (close.toList ++ ']' :: rest)) = (ofItems (v :: items), true, rest) := by
  have hsep : ("," ++ gap).toList = ',' :: gap.toList := by rw [String.toList_append]; rfl
  induction items generalizing v fuel with
  | nil =>
    obtain ⟨fuel, rfl⟩ := Nat.exists_eq_add_of_lt hfuel
    have hv := (h v (List.mem_singleton_self v)).read _ (close.toList ++ ']' :: rest)
      (Nat.le_add_right _ fuel)
    exact readItems_last hv (skipSpace_append hclose _)
  | cons w items ih =>
    cases fuel with
    | zero => omega
    | succ fuel =>
      obtain ⟨hv, hitems⟩ := List.forall_mem_cons.1 h
      rw [List.map_cons, List.map_cons, toList_join_cons, ← List.map_cons, hsep] at hfuel ⊢
      simp only [List.length_append, List.length_cons] at hfuel
      have hpos := hv.opens.length_pos
      have hopens : Opens ((Text.join ("," ++ gap) ((w :: items).map text)).toList ++
          (close.toList ++ ']' :: rest)) :=
        ((hitems w (List.mem_cons_self ..)).opens.join _).append _
      simp only [List.append_assoc, List.cons_append]
      exact readItems_more (hv.read _ _ (by omega)) (skipSpace_gap hgap hopens) hopens
        (ih hitems (by omega))

theorem readMembers_written (hgap : IsBlank gap) (hclose : IsBlank close)
    (h : ∀ m ∈ e :: members, ReadAs room (text m.2) m.2)
    (hfuel : 2 * (Text.join ("," ++ gap) ((e :: members).map (memberText text))).toList.length <
      fuel) (rest : List Char) :
    readMembers fuel room ((Text.join ("," ++ gap)
      ((e :: members).map (memberText text))).toList ++ (close.toList ++ '}' :: rest)) =
        (ofMembers (e :: members), true, rest) := by
  have hsep : ("," ++ gap).toList = ',' :: gap.toList := by rw [String.toList_append]; rfl
  have hblank : ∀ s : List Char, skipSpace (' ' :: s) = skipSpace s := fun _ => rfl
  induction members generalizing e fuel with
  | nil =>
    cases fuel with
    | zero => omega
    | succ fuel =>
      rw [List.map_singleton, Text.join_singleton, toList_memberText] at hfuel ⊢
      simp only [List.length_append, List.length_cons] at hfuel
      have he := (h e (List.mem_singleton_self e)).read fuel
        (close.toList ++ '}' :: rest) (by omega)
      simp only [List.append_assoc, List.cons_append]
      exact readMembers_last ((readValue_congr (hblank _)).trans he) (skipSpace_append hclose _)
  | cons m members ih =>
    cases fuel with
    | zero => omega
    | succ fuel =>
      obtain ⟨he, hmembers⟩ := List.forall_mem_cons.1 h
      rw [List.map_cons, List.map_cons, toList_join_cons, ← List.map_cons, hsep,
        toList_memberText] at hfuel ⊢
      simp only [List.length_append, List.length_cons] at hfuel
      have hopens : Opens ((Text.join ("," ++ gap)
          ((m :: members).map (memberText text))).toList ++ (close.toList ++ '}' :: rest)) :=
        ((Opens.memberText text m).join _).append _
      simp only [List.append_assoc, List.cons_append]
      refine readMembers_more ((readValue_congr (hblank _)).trans (he.read _ _ (by omega))) ?_
      rw [skipSpace_gap hgap hopens]
      exact ih hmembers (by omega)

theorem ReadAs.array (hgap : IsBlank gap) (hclose : IsBlank close)
    (h : ∀ w ∈ v :: items, ReadAs room (text w) w) :
    ReadAs (room + 1)
      ("[" ++ gap ++ Text.join ("," ++ gap) ((v :: items).map text) ++ close ++ "]")
      (.array (v :: items)) := by
  have hopens : Opens (Text.join ("," ++ gap) ((v :: items).map text)).toList :=
    (h v (List.mem_cons_self ..)).opens.join _
  refine .of_cons '[' (gap.toList ++
    ((Text.join ("," ++ gap) ((v :: items).map text)).toList ++ (close.toList ++ [']'])))
    (by simp) ⟨by decide, by decide, rfl⟩ fun fuel rest hfuel => ?_
  simp only [List.length_append] at hfuel
  simp only [List.append_assoc, List.singleton_append]
  exact readValue_array (skipSpace_gap hgap (hopens.append _)) (hopens.append _)
    (readItems_written hgap hclose h (by omega) rest)

theorem ReadAs.object (hgap : IsBlank gap) (hclose : IsBlank close)
    (h : ∀ m ∈ e :: members, ReadAs room (text m.2) m.2) :
    ReadAs (room + 1) ("\x7b" ++ gap ++
      Text.join ("," ++ gap) ((e :: members).map (memberText text)) ++ close ++ "\x7d")
      (.object (e :: members)) := by
  have hopens : Opens (Text.join ("," ++ gap) ((e :: members).map (memberText text))).toList :=
    (Opens.memberText text e).join _
  refine .of_cons '{' (gap.toList ++
    ((Text.join ("," ++ gap) ((e :: members).map (memberText text))).toList ++
      (close.toList ++ ['}'])))
    (by simp) ⟨by decide, by decide, rfl⟩ fun fuel rest hfuel => ?_
  simp only [List.length_append] at hfuel
  simp only [List.append_assoc, List.singleton_append]
  exact readValue_object (skipSpace_gap hgap (hopens.append _)) (hopens.append _)
    (readMembers_written hgap hclose h (by omega) rest)

end

theorem readAs_prettyAt {room : Nat} {v : Json} (h : Plain room v) (depth : Nat) :
    ReadAs room (prettyAt depth v) v := by
  induction h generalizing depth with
  | null =>
    rw [prettyAt]
    exact .of_cons 'n' ['u', 'l', 'l'] rfl ⟨by decide, by decide, rfl⟩ fun _ _ _ => rfl
  | bool b =>
    rw [prettyAt]
    cases b with
    | true =>
      exact .of_cons 't' ['r', 'u', 'e'] rfl ⟨by decide, by decide, rfl⟩ fun _ _ _ => rfl
    | false =>
      exact .of_cons 'f' ['a', 'l', 's', 'e'] rfl ⟨by decide, by decide, rfl⟩ fun _ _ _ => rfl
  | string s =>
    rw [prettyAt]
    refine .of_cons _ _ (toList_stringText s) ⟨by decide, by decide, rfl⟩ fun fuel rest _ => ?_
    rw [List.append_assoc]
    exact readValue_string s
  | @array n items _ ih =>
    rw [prettyAt, prettyItems_eq_map]
    cases items with
    | nil =>
      exact .of_cons '[' [']'] (by simp [bracketed])
        ⟨by decide, by decide, rfl⟩ fun _ _ _ => rfl
    | cons v items =>
      obtain ⟨gap, close, hgap, hclose, htext⟩ := bracketed_cons depth "[" "]"
        (prettyAt (depth + 1) v) (items.map (prettyAt (depth + 1)))
      rw [List.map_cons, htext]
      exact .array hgap hclose fun w hw => ih w hw (depth + 1)
  | @object n members _ ih =>
    rw [prettyAt, prettyMembers_eq_map]
    cases members with
    | nil =>
      exact .of_cons '{' ['}'] (by simp [bracketed])
        ⟨by decide, by decide, rfl⟩ fun _ _ _ => rfl
    | cons e members =>
      obtain ⟨gap, close, hgap, hclose, htext⟩ := bracketed_cons depth "\x7b" "\x7d"
        (memberText (prettyAt (depth + 1)) e) (members.map (memberText (prettyAt (depth + 1))))
      rw [List.map_cons, htext]
      exact .object hgap hclose fun m hm => ih m hm (depth + 1)

/-- The pretty text of a value is read without a fault. -/
theorem ofText_pretty {v : Json} (h : Plain maxDepth v) : ofText v.pretty = ofJson v := by
  have hread := (readAs_prettyAt h 0).read (2 * v.pretty.toList.length + 2) []
    (Nat.le_add_right _ 2)
  rw [List.append_nil] at hread
  rw [ofText]
  exact congrArg Prod.fst hread

end Reading

end Bindery.Json
