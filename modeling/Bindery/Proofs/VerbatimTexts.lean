import Bindery.Proofs.ArityDispatch
import Bindery.Proofs.FileImports
import Bindery.Proofs.SpelledNames
import Bindery.Proofs.TemplateReading

/-!
# Texts that pass through

What a file shows of a description goes through templates, blocks and indentation, and none of these
look into it. `Carried s t` says that each line of `s`, and so each word between braces, stands in
`t` as it is. `Foreign` lists what the files show that is not their own, and `artifacts_filled` says
that all of it is carried, and that a file is its template with a value in every place.
-/

namespace Bindery

namespace Text
variable {s t u sep : String} {texts : List String} {l w : List Char} {c : Char}

/-- Every stretch of a line of the first text stands in the second. -/
def Carried (s t : String) : Prop :=
  ∀ w : List Char, '\n' ∉ w → w <:+: s.toList → w <:+: t.toList

/-- A stretch without a separator lies within one piece. -/
theorem exists_piece_start (hw : c ∉ w) (h : w <+: l) :
    ∃ p ps, pieces (· == c) l = p :: ps ∧ w <+: p := by
  induction l generalizing w with
  | nil =>
    obtain rfl : w = [] := List.prefix_nil.1 h
    exact ⟨[], [], rfl, List.nil_prefix⟩
  | cons d rest ih =>
    rw [pieces]
    cases w with
    | nil =>
      obtain ⟨p, ps, hp, -⟩ := ih List.not_mem_nil List.nil_prefix
      split
      · exact ⟨_, _, rfl, List.nil_prefix⟩
      · exact ⟨_, _, by rw [hp], List.nil_prefix⟩
    | cons e w =>
      obtain ⟨rfl, hrest⟩ := List.cons_prefix_cons.1 h
      obtain ⟨he, hw⟩ := List.ne_and_not_mem_of_not_mem_cons hw
      obtain ⟨p, ps, hp, hstart⟩ := ih hw hrest
      rw [if_neg (by simpa using Ne.symm he), hp]
      exact ⟨_, _, rfl, List.cons_prefix_cons.2 ⟨rfl, hstart⟩⟩

theorem exists_piece_within (hw : c ∉ w) (h : w <:+: l) : ∃ p ∈ pieces (· == c) l, w <:+: p := by
  induction l with
  | nil =>
    obtain rfl : w = [] := List.infix_nil.1 h
    exact ⟨[], List.mem_singleton_self _, List.infix_rfl⟩
  | cons d rest ih =>
    rcases List.infix_cons_iff.1 h with h | h
    · obtain ⟨p, ps, hp, hstart⟩ := exists_piece_start hw h
      exact ⟨p, by rw [hp]; exact List.mem_cons_self .., hstart.isInfix⟩
    · obtain ⟨p, hp, hwithin⟩ := ih h
      rw [pieces]
      split
      · exact ⟨p, List.mem_cons_of_mem _ hp, hwithin⟩
      · cases hrest : pieces (· == c) rest with
        | nil => exact absurd hrest (pieces_ne_nil _ rest)
        | cons q qs =>
          rw [hrest] at hp
          rcases List.mem_cons.1 hp with rfl | hp
          · exact ⟨d :: p, List.mem_cons_self .., List.infix_cons hwithin⟩
          · exact ⟨p, List.mem_cons_of_mem _ hp, hwithin⟩

namespace Carried

theorem of_within (h : s.toList <:+: t.toList) : Carried s t := fun _ _ hw => hw.trans h

theorem refl (s : String) : Carried s s := of_within List.infix_rfl

theorem of_eq (h : s = t) : Carried s t := h ▸ refl s

theorem trans (h : Carried s t) (h' : Carried t u) : Carried s u :=
  fun w hline hw => h' w hline (h w hline hw)

theorem append_right (h : Carried s t) (u : String) : Carried s (t ++ u) :=
  h.trans (of_within (by rw [String.toList_append]; exact List.infix_append' [] _ _))

theorem append_left (h : Carried s t) (u : String) : Carried s (u ++ t) :=
  h.trans (of_within (by rw [String.toList_append]; exact (List.suffix_append _ _).isInfix))

theorem join (h : s ∈ texts) : Carried s (join sep texts) := of_within (Cython.infix_join h)

/-- Indenting moves lines, and breaks none. -/
theorem indent (h : s ∈ texts) (width : Nat) : Carried s (indent width texts) := by
  intro w hline hw
  obtain ⟨p, hp, hwithin⟩ := exists_piece_within hline hw
  have hmem : String.ofList p ∈ texts.flatMap lines :=
    List.mem_flatMap.2 ⟨s, h, List.mem_map_of_mem hp⟩
  refine .trans ?_ (Cython.infix_join (List.mem_map_of_mem hmem))
  rw [indentLine]
  split
  next hempty =>
    obtain rfl : p = [] := by simpa using hempty
    simpa using hwithin
  next =>
    rw [String.toList_append, String.toList_ofList]
    exact hwithin.trans (List.suffix_append _ _).isInfix

end Carried

end Text

namespace Cython
open Text (Carried Reads Piece IsWord join fill indent lowerCase)

/-! ### Templates -/

def template : ArtifactKind → String
  | .header => headerTemplate
  | .declaration => declarationTemplate
  | .implementation => implementationTemplate

theorem file_eq_fill (kind : ArtifactKind) (cx : RenderContext) :
    file kind cx = fill (template kind) (values cx kind) := by
  cases kind <;> rfl

/-- The words of a template in front of the one for fragments. -/
def words : ArtifactKind → List String
  | .header => ["warning", "imports", "header_filename", "scope_clause", "name", "parents_clause",
      "constructors_block", "attrs_block", "methods_block"]
  | .declaration => ["warning", "imports", "name", "parents_clause", "cpp_module", "name"]
  | .implementation => ["warning", "module_docstring", "imports", "name", "parents_clause",
      "class_docstring", "init_block", "attrs_block", "methods_block"]

/-- The template is read with placeholders for these words, and ends with the one for fragments. -/
def Lays (t : String) (ws : List String) : Prop :=
  ∃ ps, Reads t.toList (ps ++ [.slot "extra".toList]) ∧ ps.filterMap Piece.word? = ws

section
variable {s t word : String} {ws : List String}

theorem lays_text (hs : '{' ∉ s.toList) (h : Lays t ws) : Lays (s ++ t) ws := by
  obtain ⟨ps, hps, hwords⟩ := h
  refine ⟨s.toList.map .char ++ ps, ?_, ?_⟩
  · rw [String.toList_append, List.append_assoc]
    exact hps.text hs
  · rw [List.filterMap_append, hwords, List.filterMap_eq_nil_iff.2, List.nil_append]
    simp [Piece.word?]

theorem lays_slot (hword : IsWord word.toList) (h : Lays t ws) :
    Lays (slot word ++ t) (word :: ws) := by
  obtain ⟨ps, hps, hwords⟩ := h
  refine ⟨.slot word.toList :: ps, ?_, ?_⟩
  · have hsource : (slot word ++ t).toList = '{' :: word.toList ++ '}' :: t.toList := by simp [slot]
    rw [hsource]
    exact .slot hword hps
  · simp [Piece.word?, hwords]

theorem lays_extra : Lays (slot "extra") [] :=
  ⟨[], .slot (by decide : IsWord "extra".toList) .done, rfl⟩

end

theorem lays_template (kind : ArtifactKind) : Lays (template kind) (words kind) := by
  cases kind
  -- a template is a chain of texts and placeholders, and each is read off in turn
  all_goals
    simp only [template, words, headerTemplate, declarationTemplate, implementationTemplate, join,
      String.append_assoc]
    repeat first
      | with_reducible exact lays_extra
      | (with_reducible refine lays_slot ?_ ?_
         · decide)
      | (with_reducible refine lays_text ?_ ?_
         · decide +kernel)

/-! ### Values in their places -/

/-- Where a fragment for a file is looked up. -/
def extraKey : ArtifactKind → String
  | .header => "cpppxd"
  | .declaration => "pxd"
  | .implementation => "pyx"

theorem get?_extra (kind : ArtifactKind) (cx : RenderContext) :
    (values cx kind).get? "extra" = some (extraFragment cx (extraKey kind)) := by
  cases kind <;> exact get?_of_vars rfl rfl

theorem isSome_get?_vars {l : List (String × String)} {w : String} (h : w ∈ l.map (·.1)) :
    ((vars l).get? w).isSome = true := by
  obtain ⟨e, he, rfl⟩ := List.mem_map.1 h
  rw [get?_vars, Option.isSome_map, List.find?_isSome]
  exact ⟨e, List.mem_reverse.2 he, beq_self_eq_true _⟩

/-- No placeholder is left over. -/
theorem isSome_get?_words (kind : ArtifactKind) (cx : RenderContext) :
    ∀ w ∈ words kind, ((values cx kind).get? w).isSome = true := by
  intro w hw
  cases kind
  all_goals
    refine isSome_get?_vars ?_
    revert w
    simp only [List.map_cons, List.map_nil]
    decide

section
variable {kind : ArtifactKind} {cx : RenderContext} {s value : String}

/-- What is carried by the value of a placeholder is carried by the file. -/
theorem carried_of_value (word : String) {l : List (String × String)} (hword : word ∈ words kind)
    (hl : values cx kind = vars l)
    (hvalue : (l.reverse.find? (·.1 == word)).map (·.2) = some value) (hs : Carried s value) :
    Carried s (file kind cx) := by
  have hvalue := get?_of_vars hl hvalue
  obtain ⟨ps, hreads, hwords⟩ := lays_template kind
  rw [← hwords] at hword
  obtain ⟨p, hp, hpword⟩ := List.mem_filterMap.1 hword
  refine hs.trans (.of_within ?_)
  have hfilled : p.filled (values cx kind) = value.toList := by
    cases p with
    | char c => cases hpword
    | slot w =>
      cases hpword
      rw [Piece.filled, hvalue]
  obtain ⟨before, after, rfl⟩ := List.append_of_mem hp
  rw [file_eq_fill, Text.fill_eq_of_reads hreads, ← hfilled]
  simp only [List.flatMap_append, List.flatMap_cons, List.append_assoc]
  exact List.infix_append' _ _ _

theorem file_ends (kind : ArtifactKind) (cx : RenderContext) :
    ∃ before, file kind cx = before ++ extraFragment cx (extraKey kind) := by
  obtain ⟨ps, hreads, -⟩ := lays_template kind
  have hlast := Text.filled_slot_of_get? (get?_extra kind cx)
  refine ⟨String.ofList (ps.flatMap (Piece.filled (values cx kind))), String.toList_inj.1 ?_⟩
  rw [file_eq_fill, Text.fill_eq_of_reads hreads, List.flatMap_append, List.flatMap_singleton,
    hlast, String.toList_append, String.toList_ofList]

end

/-! ### Lines -/

section
variable {s t name before after : String} {args : List String} {returns marker? : Option String}

theorem carried_between (before s after : String) : Carried s (before ++ s ++ after) :=
  ((Carried.refl s).append_left before).append_right after

theorem carried_of_call (h : Carried s
      (name ++ "(" ++ join ", " args ++ ")" ++ (marker?.map (" except " ++ ·)).getD "")) :
    Carried s (signatureText name args returns marker?) := by
  cases returns with
  | none => exact h
  | some type => exact h.append_left (type ++ " ")

theorem carried_signatureText_name : Carried name (signatureText name args returns marker?) := by
  refine carried_of_call ?_
  have h := (Carried.refl name).append_right "("
  exact ((h.append_right _).append_right ")").append_right _

theorem carried_signatureText_arg (h : s ∈ args) :
    Carried s (signatureText name args returns marker?) := by
  refine carried_of_call ?_
  have h : Carried s (join ", " args) := .join h
  exact ((h.append_left _).append_right ")").append_right _

theorem carried_signatureText_returns :
    Carried t (signatureText name args (some t) marker?) :=
  ((Carried.refl t).append_right " ").append_right _

theorem carried_parentsClause (h : s ∈ args) : Carried s (parentsClause args) := by
  have hne : ¬ args.isEmpty = true := by
    rw [List.isEmpty_iff]
    exact List.ne_nil_of_mem h
  rw [parentsClause, if_neg hne]
  exact (Carried.join h).trans (carried_between "(" _ ")")

end

/-! ### What a file shows -/

section
variable {d : Description} {name s : String} {kind : ArtifactKind} {marker? : Option String}

/-- A signature that the header declares. -/
def IsDeclared (d : Description) (s : Signature) : Prop :=
  s ∈ Backend.shownSignatures d ∧ (s.2.isSome = true ∨ s.1.isDestructor = false)

/-- The text comes from the description and is shown in the file. -/
inductive Foreign (d : Description) (name : String) : ArtifactKind → String → Prop where
  | className {kind : ArtifactKind} : Foreign d name kind name
  | extra {kind : ArtifactKind} {text : String} :
      d.extraText? (extraKey kind) = some text → Foreign d name kind text
  | headerFile : Foreign d name .header ((d.extraText? "header_filename").getD (name ++ ".h"))
  | scope {scope : String} : d.scope? = some scope → Foreign d name .header scope
  | parentType {t : TypeTerm} : t ∈ d.parents?.getD [] → Foreign d name .header (typeText t)
  | parent {kind : ArtifactKind} {t : TypeTerm} :
      kind ≠ .header → t ∈ d.parents?.getD [] → Foreign d name kind (parentText t)
  | attrName {kind : ArtifactKind} {e : String × TypeTerm} :
      kind ≠ .declaration → e ∈ Backend.shownAttrs d → Foreign d name kind e.1
  | attrType {e : String × TypeTerm} :
      e ∈ Backend.shownAttrs d → Foreign d name .header (typeText e.2)
  | signatureName {s : Signature} : IsDeclared d s → Foreign d name .header s.1.name
  | signatureType {s : Signature} {t : TypeTerm} :
      IsDeclared d s → t ∈ Backend.signatureTypes s → Foreign d name .header (typeText t)
  | methodName {s : Signature} :
      s ∈ Backend.shownSignatures d → s.2.isSome = true →
        Foreign d name .implementation s.1.name
  | moduleDoc {docs : Docstrings} {text : String} :
      d.docstrings? = some docs → docs.module? = some text → Foreign d name .implementation text
  | classDoc {docs : Docstrings} {text : String} :
      d.docstrings? = some docs → docs.class? = some text → Foreign d name .implementation text
  | constructorDoc {docs : Docstrings} {text : String} :
      d.docstrings? = some docs → docs.methods.get? name = some text →
        Foreign d name .implementation text
  | attrDoc {docs : Docstrings} {text : String} {e : String × TypeTerm} :
      d.docstrings? = some docs → e ∈ Backend.shownAttrs d → docs.attrs.get? e.1 = some text →
        Foreign d name .implementation text
  | methodDoc {docs : Docstrings} {text : String} {s : Signature} :
      d.docstrings? = some docs → s ∈ Backend.shownSignatures d → s.2.isSome = true →
        docs.methods.get? s.1.name = some text → Foreign d name .implementation text
  | importLine {kind : ArtifactKind} {i : Import} :
      i ∈ fileImports d name kind → Foreign d name kind (importText i)

/-- The line of a signature stands in the header. -/
theorem carried_line {g : Signature} (hg : IsDeclared d g) :
    Carried (backend.renderSignature marker? g).line
      (file .header (backend.context d name marker?)) := by
  obtain ⟨hshown, hdeclared⟩ := hg
  have hrendered := List.mem_map_of_mem (f := backend.renderSignature marker?) hshown
  cases hreturns : g.2 with
  | some t =>
    refine carried_of_value "methods_block" (by decide) rfl rfl
      (.indent (List.mem_map_of_mem ?_) 8)
    exact List.mem_filter.2 ⟨hrendered, by simp [Backend.renderSignature, hreturns]⟩
  | none =>
    have hplain : g.1.isDestructor = false := by simpa [hreturns] using hdeclared
    refine carried_of_value "constructors_block" (by decide) rfl rfl
      (.indent (List.mem_map_of_mem ?_) 8)
    refine List.mem_filter.2 ⟨List.mem_filter.2 ⟨hrendered, ?_⟩, ?_⟩
    · simp [Backend.renderSignature, hreturns]
    · simp [Backend.renderSignature, hplain]

theorem carried_attrLine {e : String × TypeTerm} (he : e ∈ Backend.shownAttrs d) :
    Carried (attrText e.1 (typeText e.2)) (file .header (backend.context d name marker?)) := by
  refine carried_of_value "attrs_block" (by decide) rfl rfl (.indent ?_ 8)
  exact List.mem_map.2 ⟨_, List.mem_map.2 ⟨e, he, rfl⟩, rfl⟩

/-- A line of the block for an attribute. -/
theorem carried_property {e : String × TypeTerm} {line : String} (he : e ∈ Backend.shownAttrs d)
    (hline : line ∈ propertyBlock (backend.context d name marker?)
      (backend.renderAttr e.1 e.2)) :
    Carried line (file .implementation (backend.context d name marker?)) := by
  refine carried_of_value "attrs_block" (by decide) rfl rfl (.indent ?_ 4)
  exact List.mem_flatMap.2 ⟨_, List.mem_map.2 ⟨e, he, rfl⟩, hline⟩

/-- There is a block for each method that is shown. -/
theorem carried_method {g : Signature} (hg : g ∈ Backend.shownSignatures d)
    (hreturns : g.2.isSome = true) {line : String}
    (hline : ∀ group, line ∈ methodBlock (backend.context d name marker?) (g.1.name, group)) :
    Carried line (file .implementation (backend.context d name marker?)) := by
  refine carried_of_value "methods_block" (by decide) rfl rfl (.indent ?_ 4)
  obtain ⟨names, -, hmem, hgroups⟩ := byName_eq (@pairwise_methods d name marker?)
  have hname : g.1.name ∈ names :=
    (hmem _).2 (mem_names.2 ⟨g, hg, rfl, Option.isSome_iff_ne_none.1 hreturns⟩)
  rw [hgroups]
  exact List.mem_flatMap.2 ⟨_, List.mem_map_of_mem hname, hline _⟩

theorem carried_parents (hkind : kind ≠ .header) {t : TypeTerm} (ht : t ∈ d.parents?.getD []) :
    Carried (parentText t) (file kind (backend.context d name marker?)) := by
  have hclause : Carried (parentText t)
      (parentsClause ((backend.context d name marker?).parents.map parentText)) :=
    carried_parentsClause (List.mem_map_of_mem ht)
  cases kind with
  | header => exact absurd rfl hkind
  | declaration => exact carried_of_value "parents_clause" (by decide) rfl rfl hclause
  | implementation => exact carried_of_value "parents_clause" (by decide) rfl rfl hclause

/-- A docstring that a description has is taken as it is. -/
theorem docstring_eq (part : Docstrings → Option String) (what : String) {docs : Docstrings}
    (hdocs : d.docstrings? = some docs) (htext : part docs = some s) :
    docstring (d.docstrings?.bind part) what = s := by
  rw [hdocs, Option.bind_some, htext]
  rfl

theorem carried_docstring (part : Docstrings → Option String) (what : String) {docs : Docstrings}
    (hdocs : d.docstrings? = some docs) (htext : part docs = some s) :
    Carried s ("    \"\"\"" ++ docstring (d.docstrings?.bind part) what ++ "\"\"\"") := by
  rw [docstring_eq part what hdocs htext]
  exact carried_between _ _ _

theorem extraFragment_context {key t : String} (ht : d.extraText? key = some t) :
    extraFragment (backend.context d name marker?) key = "\n" ++ t ++ "\n" := by
  rw [extraFragment, show (backend.context d name marker?).desc = d from rfl, ht]

/-- What a file shows of the description it shows as it is, line by line. -/
theorem Foreign.carried (h : Foreign d name kind s) :
    Carried s (file kind (backend.context d name marker?)) := by
  cases h with
  | className =>
    cases kind
    all_goals exact carried_of_value "name" (by decide) rfl rfl (.refl _)
  | extra htext =>
    obtain ⟨before, heq⟩ := file_ends kind (backend.context d name marker?)
    rw [heq, extraFragment_context htext]
    exact (carried_between _ _ _).append_left _
  | headerFile =>
    exact carried_of_value "header_filename" (by decide) rfl rfl (.refl _)
  | scope hscope =>
    refine carried_of_value "scope_clause" (by decide) rfl rfl ?_
    rw [show (backend.context d name marker?).scope? = d.scope? from rfl, hscope]
    exact carried_between _ _ _
  | parentType ht =>
    exact carried_of_value "parents_clause" (by decide) rfl rfl
      (carried_parentsClause (List.mem_map_of_mem ht))
  | parent hkind ht => exact carried_parents hkind ht
  | attrName hkind he =>
    cases kind with
    | header => exact ((Carried.refl _).append_left _).trans (carried_attrLine he)
    | declaration => exact absurd rfl hkind
    | implementation =>
      exact (carried_between "property " _ ":").trans (carried_property he (List.mem_cons_self ..))
  | attrType he =>
    exact (((Carried.refl _).append_right " ").append_right _).trans (carried_attrLine he)
  | signatureName hg => exact carried_signatureText_name.trans (carried_line hg)
  | @signatureType g t hg ht =>
    refine .trans ?_ (carried_line hg)
    rcases List.mem_append.1 ht with ht | ht
    · obtain ⟨a, ha, rfl⟩ := List.mem_map.1 ht
      exact carried_signatureText_arg (List.mem_map.2 ⟨a, ha, rfl⟩)
    · obtain ⟨key, returns⟩ := g
      obtain rfl : returns = some t := Option.mem_toList.1 ht
      exact carried_signatureText_returns
  | methodName hg hreturns =>
    refine (carried_between "def " _ "(self, *args):").trans (carried_method hg hreturns ?_)
    exact fun group => List.mem_cons_self ..
  | moduleDoc hdocs htext =>
    exact carried_of_value "module_docstring" (by decide) rfl rfl
      (.of_eq (docstring_eq (·.module?) _ hdocs htext).symm)
  | classDoc hdocs htext =>
    exact carried_of_value "class_docstring" (by decide) rfl rfl
      (.of_eq (docstring_eq (·.class?) _ hdocs htext).symm)
  | constructorDoc hdocs htext =>
    refine (carried_docstring (·.methods.get? name) name hdocs htext).trans
      (carried_of_value "init_block" (by decide) rfl rfl (.indent ?_ 4))
    exact List.mem_cons_of_mem _ (List.mem_cons_self ..)
  | @attrDoc docs _ e hdocs he htext =>
    refine (carried_docstring (·.attrs.get? e.1) e.1 hdocs htext).trans (carried_property he ?_)
    exact List.mem_cons_of_mem _ (List.mem_cons_self ..)
  | @methodDoc docs _ g hdocs hg hreturns htext =>
    refine (carried_docstring (·.methods.get? g.1.name) g.1.name hdocs htext).trans
      (carried_method hg hreturns ?_)
    exact fun group => List.mem_cons_of_mem _ (List.mem_cons_self ..)
  | @importLine _ i hi =>
    rw [file_eq, importBlock_context]
    have hline : importText i ∈ sortedDistinct compare ((fileImports d name kind).map importText) :=
      mem_sortedDistinct.2 (List.mem_map_of_mem hi)
    exact (((Carried.join hline).append_left _).append_right _).append_right _

/-- The file is its template with a value in the place of every placeholder, takes over the texts of
the description, and closes with the fragment for it. -/
structure TakesOver (d : Description) (name : String) (vars : Text.Vars) (kind : ArtifactKind)
    (text : String) : Prop where
  places : ∃ ps, Reads (template kind).toList ps ∧
    (∀ word, .slot word ∈ ps → (vars.get? (String.ofList word)).isSome = true) ∧
    text.toList = ps.flatMap (Piece.filled vars)
  carried : ∀ s, Foreign d name kind s → Carried s text
  ending : ∀ t, d.extraText? (extraKey kind) = some t →
    ∃ before, text = before ++ ("\n" ++ t ++ "\n")

theorem file_takesOver (kind : ArtifactKind) :
    TakesOver d name (values (backend.context d name marker?) kind) kind
      (file kind (backend.context d name marker?)) where
  places := by
    obtain ⟨ps, hreads, hwords⟩ := lays_template kind
    refine ⟨_, hreads, fun word hword => ?_, ?_⟩
    · rcases List.mem_append.1 hword with hword | hword
      · refine isSome_get?_words kind _ _ ?_
        rw [← hwords]
        exact List.mem_filterMap.2 ⟨_, hword, rfl⟩
      · cases List.mem_singleton.1 hword
        rw [String.ofList_toList, get?_extra]
        rfl
    · rw [file_eq_fill, Text.fill_eq_of_reads hreads]
  carried _ h := h.carried
  ending t ht := by
    obtain ⟨before, heq⟩ := file_ends kind (backend.context d name marker?)
    exact ⟨before, by rw [heq, extraFragment_context ht]⟩

end

/-- Filling puts values in the places of the one reading of a template, and so each file of a valid
description is its template with nothing left open and nothing that it is given changed. -/
theorem artifacts_filled :
    (∀ t : String, ∃ ps, Reads t.toList ps ∧ (∀ ps', Reads t.toList ps' → ps' = ps) ∧
      ps.flatMap Piece.source = t.toList ∧
      ∀ vars, (fill t vars).toList = ps.flatMap (Piece.filled vars)) ∧
    ∀ (d : Description) (marker? : Option String), d.validate = .ok () →
      ∃ name files, d.name? = some name ∧ backend.generate d marker? = .ok files ∧
        ∀ kind, TakesOver d name (values (backend.context d name marker?) kind) kind
          (files.get kind).text := by
  constructor
  · intro t
    obtain ⟨ps, hreads⟩ := Text.exists_reads t.toList
    exact ⟨ps, hreads, fun ps' h => Text.reads_unique h hreads, Text.flatMap_source hreads,
      Text.fill_eq_of_reads hreads⟩
  · intro d marker? h
    obtain ⟨name, hname, hgenerate⟩ := Backend.exists_generate h
    refine ⟨name, _, hname, hgenerate, fun kind => ?_⟩
    rw [text_written]
    exact file_takesOver kind

/-- An oven whose texts are full of words that the templates have a value for. -/
def bracedOven : Description :=
  { Description.named "Oven" with
    docstrings? := some { Docstrings.empty with class? := some "Bakes \x7bname\x7d." }
    extra? := some ⟨[("pxd", .string "# \x7bextra\x7d\x7b\x7bname\x7d\x7d")], rfl⟩ }

theorem artifacts_filled_braced :
    bracedOven.validate = .ok () ∧
      ∃ files, backend.generate bracedOven (some defaultMarker) = .ok files ∧
        Carried "Bakes \x7bname\x7d." files.implementation.text ∧
        ∃ before, files.declaration.text = before ++
          ("\n" ++ "# \x7bextra\x7d\x7b\x7bname\x7d\x7d" ++ "\n") := by
  have hvalid : bracedOven.validate = .ok () := rfl
  obtain ⟨name, files, -, hgenerate, hfiles⟩ :=
    artifacts_filled.2 bracedOven (some defaultMarker) hvalid
  refine ⟨hvalid, files, hgenerate, ?_, ?_⟩
  · exact (hfiles .implementation).carried _ (.classDoc rfl rfl)
  · exact (hfiles .declaration).ending _ rfl

end Cython

end Bindery
