import Bindery.Binding.Cython
import Bindery.Proofs.MapLookup
import Bindery.Proofs.Validity

/-!
# What the files of a class are made from

`RenderContext.Shows` relates a description to the context that a backend writes its files from,
for any backend: all that is not private by name is there once, in its order and in the backend's
spelling, and the imports are those that the types on show need. Generating succeeds on every valid
description, and the three files are written from such a context.
-/

namespace Bindery

/-- A name that the files of a class may show. -/
def IsShown (name : String) : Prop := MethodKey.isPrivateName name = false

namespace RenderContext

/-- The types that the context shows somewhere. -/
inductive Needs (cx : RenderContext) : TypeTerm → Prop where
  | parent {t : TypeTerm} : t ∈ cx.parents → Needs cx t
  | attr {a : RenderedAttr} : a ∈ cx.attrs → Needs cx a.type
  | argument {s : RenderedSignature} {a : Argument} :
      s ∈ cx.constructors ++ cx.methods → a ∈ s.key.args → Needs cx a.type
  | returned {s : RenderedSignature} {t : TypeTerm} :
      s ∈ cx.constructors ++ cx.methods → s.returns = some t → Needs cx t

structure Shows (b : Backend) (d : Description) (marker? : Option String) (cx : RenderContext) :
    Prop where
  name : d.name? = some cx.name
  desc : cx.desc = d
  parents : cx.parents = d.parents?.getD []
  attrs : ∀ n t, (∃ a ∈ cx.attrs, a.name = n ∧ a.type = t) ↔ d.attrs.get? n = some t ∧ IsShown n
  attrsAscend : cx.attrs.Pairwise fun a a' => compare a.name a'.name = .lt
  attrTexts : ∀ a ∈ cx.attrs,
    a.typeText = b.typeText a.type ∧ a.line = b.attrText a.name (b.typeText a.type)
  /-- Each signature on show is in one of the two lists, and there is no other. -/
  signatures : ((cx.constructors ++ cx.methods).map fun s => (s.key, s.returns)).Perm
    (d.methods.signatures.filter fun s => !MethodKey.isPrivateName s.1.name)
  constructorsInOrder :
    (cx.constructors.map fun s => (s.key, s.returns)).Sublist d.methods.signatures
  methodsInOrder : (cx.methods.map fun s => (s.key, s.returns)).Sublist d.methods.signatures
  constructors : ∀ s ∈ cx.constructors, s.returns = none
  methods : ∀ s ∈ cx.methods, s.returns ≠ none
  signatureTexts : ∀ s ∈ cx.constructors ++ cx.methods,
    s.argTypes = s.key.args.map (b.typeText ·.type) ∧
      s.line = b.signatureText s.key.name s.argTypes (s.returns.map b.typeText) marker?
  importsAscend : cx.imports.Pairwise fun i i' => compare i i' = .lt
  imports : ∀ text, text ∈ cx.imports ↔
    ∃ t, cx.Needs t ∧ ∃ i ∈ b.imports t, i.binds? ≠ some cx.name ∧ b.importText i = text

end RenderContext

namespace Backend
variable {b : Backend} {d : Description} {name : String} {marker? : Option String}

/-! ### Attributes -/

theorem mem_shownAttrs {e : String × TypeTerm} :
    e ∈ shownAttrs d ↔ d.attrs.get? e.1 = some e.2 ∧ IsShown e.1 := by
  rw [SortedMap.get?_eq_some_iff_mem]
  simp [shownAttrs, IsShown]

theorem pairwise_shownAttrs : (shownAttrs d).Pairwise fun e e' => compare e.1 e'.1 = .lt :=
  d.attrs.ascending.sublist List.filter_sublist

/-! ### Signatures -/

/-- A rendered signature without its texts is the signature. -/
theorem map_renderSignature (l : List Signature) :
    (l.map (b.renderSignature marker?)).map (fun s => (s.key, s.returns)) = l := by
  rw [List.map_map]
  exact List.map_id l

/-- The two lists of a context share the rendered signatures out among themselves. -/
theorem perm_rendered :
    ((b.context d name marker?).constructors ++ (b.context d name marker?).methods).Perm
      ((shownSignatures d).map (b.renderSignature marker?)) := by
  have hsome : (fun s : RenderedSignature => s.returns.isSome) = fun s => !s.returns.isNone := by
    funext s; cases s.returns <;> rfl
  show (_ ++ List.filter (fun s : RenderedSignature => s.returns.isSome) _).Perm _
  rw [hsome]
  exact List.filter_append_perm ..

theorem rendered_sublist (p : RenderedSignature → Bool) :
    ((((shownSignatures d).map (b.renderSignature marker?)).filter p).map
      fun s => (s.key, s.returns)).Sublist d.methods.signatures := by
  have hsub := (List.filter_sublist (p := p)
    (l := (shownSignatures d).map (b.renderSignature marker?))).map fun s => (s.key, s.returns)
  rw [map_renderSignature] at hsub
  exact hsub.trans List.filter_sublist

theorem mem_rendered {s : RenderedSignature}
    (h : s ∈ (b.context d name marker?).constructors ++ (b.context d name marker?).methods) :
    ∃ g ∈ shownSignatures d, b.renderSignature marker? g = s :=
  List.mem_map.1 (perm_rendered.mem_iff.1 h)

theorem renderSignature_mem {g : Signature} (h : g ∈ shownSignatures d) :
    b.renderSignature marker? g ∈
      (b.context d name marker?).constructors ++ (b.context d name marker?).methods :=
  perm_rendered.mem_iff.2 (List.mem_map.2 ⟨g, h, rfl⟩)

/-! ### Imports -/

/-- A type is shown if and only if the context has a place for it. -/
theorem mem_shownTypes {t : TypeTerm} :
    t ∈ shownTypes d ↔ (b.context d name marker?).Needs t := by
  simp only [shownTypes, List.mem_append, List.mem_map, List.mem_flatMap, signatureTypes,
    Option.mem_toList]
  constructor
  · rintro ((hparent | ⟨e, he, rfl⟩) | ⟨g, hg, ⟨a, ha, rfl⟩ | ht⟩)
    · exact .parent hparent
    · exact .attr (a := b.renderAttr e.1 e.2) (List.mem_map.2 ⟨e, he, rfl⟩)
    · exact .argument (renderSignature_mem hg) ha
    · exact .returned (renderSignature_mem hg) ht
  · intro h
    cases h with
    | parent hparent => exact .inl (.inl hparent)
    | attr ha =>
      obtain ⟨e, he, rfl⟩ := List.mem_map.1 ha
      exact .inl (.inr ⟨e, he, rfl⟩)
    | argument hs ha =>
      obtain ⟨g, hg, rfl⟩ := mem_rendered hs
      exact .inr ⟨g, hg, .inl ⟨_, ha, rfl⟩⟩
    | returned hs ht =>
      obtain ⟨g, hg, rfl⟩ := mem_rendered hs
      exact .inr ⟨g, hg, .inr ht⟩

theorem mem_importLines {types : List TypeTerm} {text : String} :
    text ∈ b.importLines name types ↔
      ∃ t ∈ types, ∃ i ∈ b.imports t, i.binds? ≠ some name ∧ b.importText i = text := by
  simp only [importLines, mem_sortedDistinct, List.mem_map, List.mem_filter, List.mem_flatMap,
    Import.provides, Bool.not_eq_true', beq_eq_false_iff_ne]
  constructor
  · rintro ⟨i, ⟨⟨t, ht, hi⟩, hbinds⟩, htext⟩
    exact ⟨t, ht, i, hi, hbinds, htext⟩
  · rintro ⟨t, ht, i, hi, hbinds, htext⟩
    exact ⟨i, ⟨⟨t, ht, hi⟩, hbinds⟩, htext⟩

/-! ### Contexts and files -/

theorem context_shows (hname : d.name? = some name) :
    (b.context d name marker?).Shows b d marker? where
  name := hname
  desc := rfl
  parents := rfl
  attrs n t := by
    constructor
    · rintro ⟨a, ha, rfl, rfl⟩
      obtain ⟨e, he, rfl⟩ := List.mem_map.1 ha
      exact mem_shownAttrs.1 he
    · intro h
      exact ⟨b.renderAttr n t, List.mem_map.2 ⟨(n, t), mem_shownAttrs.2 h, rfl⟩, rfl, rfl⟩
  attrsAscend := List.pairwise_map.2 pairwise_shownAttrs
  attrTexts a ha := by
    obtain ⟨e, -, rfl⟩ := List.mem_map.1 ha
    exact ⟨rfl, rfl⟩
  signatures := by
    refine (perm_rendered.map _).trans ?_
    rw [map_renderSignature]
    exact .refl _
  constructorsInOrder := rendered_sublist _
  methodsInOrder := rendered_sublist _
  constructors s hs := Option.isNone_iff_eq_none.1 (List.mem_filter.1 hs).2
  methods s hs := Option.isSome_iff_ne_none.1 (List.mem_filter.1 hs).2
  signatureTexts s hs := by
    obtain ⟨g, -, rfl⟩ := mem_rendered hs
    exact ⟨rfl, rfl⟩
  importsAscend := pairwise_sortedDistinct
  imports text := by
    refine mem_importLines.trans ⟨?_, ?_⟩
    · rintro ⟨t, ht, h⟩
      exact ⟨t, mem_shownTypes.1 ht, h⟩
    · rintro ⟨t, ht, h⟩
      exact ⟨t, mem_shownTypes.2 ht, h⟩

/-- The three files that a backend writes from a context. -/
def written (b : Backend) (cx : RenderContext) : Artifacts :=
  ⟨⟨b.fileName .header cx.name, b.file .header cx⟩,
    ⟨b.fileName .declaration cx.name, b.file .declaration cx⟩,
    ⟨b.fileName .implementation cx.name, b.file .implementation cx⟩⟩

theorem generate_eq_ok_iff {files : Artifacts} :
    b.generate d marker? = .ok files ↔
      d.validate = .ok () ∧ ∃ name, d.className = .ok name ∧
        files = b.written (b.context d name marker?) := by
  rw [generate, Outcome.check_eq_ok]
  simp only [Outcome.bind_eq_ok, Outcome.pure_eq_ok, eq_comm (a := files)]
  rfl

theorem exists_generate (h : d.validate = .ok ()) :
    ∃ name, d.name? = some name ∧
      b.generate d marker? = .ok (b.written (b.context d name marker?)) := by
  obtain ⟨⟨name, hname⟩, -⟩ := Description.validate_eq_ok_iff.1 h
  exact ⟨name, (Description.className_eq_ok_iff.1 hname).1,
    generate_eq_ok_iff.2 ⟨h, name, hname, rfl⟩⟩

/-- Every valid description is generated, from a context that shows it and nothing else. -/
theorem generate_shows (b : Backend) (d : Description) (marker? : Option String)
    (h : d.validate = .ok ()) :
    ∃ name, d.name? = some name ∧
      b.generate d marker? = .ok (b.written (b.context d name marker?)) ∧
      (b.context d name marker?).Shows b d marker? := by
  obtain ⟨name, hname, hfiles⟩ := exists_generate h
  exact ⟨name, hname, hfiles, context_shows hname⟩

/-- An oven with a private field, a constructor and a method whose default splits it in two. -/
def ovenDescription : Description :=
  { Description.named "Oven" with
    parents? := some [.atomic "Appliance"]
    attrs := SortedMap.ofList [("heat", .atomic "double"), ("_door", .atomic "Oven")]
    methods := SortedMap.ofList
      [(⟨"Oven", []⟩, none), (⟨"bake", [⟨"minutes", .atomic "int", some "30"⟩]⟩, some .void)] }

theorem generate_shows_oven :
    ovenDescription.validate = .ok () ∧
      ∃ name, ovenDescription.name? = some name ∧
        Cython.backend.generate ovenDescription (some defaultMarker) =
          .ok (Cython.backend.written
            (Cython.backend.context ovenDescription name (some defaultMarker))) ∧
        (Cython.backend.context ovenDescription name (some defaultMarker)).Shows
          Cython.backend ovenDescription (some defaultMarker) :=
  have hvalid : ovenDescription.validate = .ok () := rfl
  ⟨hvalid, generate_shows Cython.backend ovenDescription (some defaultMarker) hvalid⟩

end Backend

end Bindery
