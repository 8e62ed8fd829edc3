import Bindery.Proofs.ExpandedSignatures
import Bindery.Proofs.RenderedContext

/-!
# The interface that files are written from

`Description.normalForm` has every public overload spelled out and nothing that is private by its
name. A description and its normal form are written to the same files (`generate_normalForm`), and so
are any two descriptions with the same interface: neither default literals, nor the choice between a
default and a spelled-out overload, nor private members have a part in them.
-/

namespace Bindery

namespace SortedMap
variable {κ β : Type} {cmp : κ → κ → Ordering} [Std.TransCmp cmp]

theorem entries_ofList {l : List (κ × β)} (h : l.Pairwise fun a b => cmp a.1 b.1 = .lt) :
    (ofList l : SortedMap κ cmp β).entries = l :=
  congrArg entries (ofList_entries ⟨l, h⟩)

end SortedMap

/-- All of an argument but the wording of its default. -/
def Argument.outline (a : Argument) : String × TypeTerm × Bool :=
  (a.name, a.type, a.default?.isSome)

theorem Argument.map_withoutDefault (args : List Argument) :
    args.map withoutDefault = (args.map outline).map fun p => ⟨p.1, p.2.1, none⟩ := by
  rw [List.map_map]
  rfl

namespace Methods
variable {m n : Methods} {s : Signature}

/-- The entries, but for the wording of their defaults. -/
def outlines (m : Methods) : List (String × List (String × TypeTerm × Bool) × Option TypeTerm) :=
  m.entries.map fun e => (e.1.name, e.1.args.map Argument.outline, e.2)

theorem exists_of_outlines (h : m.outlines = n.outlines) {e : MethodKey × Option TypeTerm}
    (he : e ∈ m.entries) : ∃ e' ∈ n.entries, e'.1.name = e.1.name ∧
      e'.1.args.map Argument.outline = e.1.args.map Argument.outline ∧ e'.2 = e.2 := by
  have hmem : (e.1.name, e.1.args.map Argument.outline, e.2) ∈ n.outlines :=
    h ▸ List.mem_map.2 ⟨e, he, rfl⟩
  obtain ⟨e', he', heq⟩ := List.mem_map.1 hmem
  simp only [Prod.mk.injEq] at heq
  exact ⟨e', he', heq⟩

/-- Whether an argument may be left out does not hang on the wording of its default. -/
theorem Offers.of_outlines (h : m.outlines = n.outlines) (hs : m.Offers s) : n.Offers s := by
  obtain ⟨e, he, args, rest, hargs, hrest, rfl⟩ := hs
  obtain ⟨e', he', hname, hsame, hreturns⟩ := exists_of_outlines h he
  rw [hargs, List.map_append, List.map_eq_append_iff] at hsame
  obtain ⟨args', rest', hargs', hkept, hleft⟩ := hsame
  refine ⟨e', he', args', rest', hargs', fun a ha => ?_, ?_⟩
  · obtain ⟨b, hb, hab⟩ := List.mem_map.1 (hleft ▸ List.mem_map_of_mem ha)
    have hdefault : b.default?.isSome = a.default?.isSome := congrArg (·.2.2) hab
    rw [← hdefault]
    exact hrest b hb
  · rw [hname, hreturns, Argument.map_withoutDefault, Argument.map_withoutDefault, hkept]

end Methods

namespace Description
variable {d e : Description}

/-- The public overloads spelled out, and only public attributes. -/
def normalForm (d : Description) : Description :=
  { d with
    attrs := d.attrs.filter fun name _ => !MethodKey.isPrivateName name
    methods := (SortedMap.ofList d.methods.signatures : Methods).filter fun key _ =>
      !MethodKey.isPrivateName key.name }

/-- Descriptions with the same signatures and attributes, apart from private ones. -/
structure SameInterface (d e : Description) : Prop where
  name : d.name? = e.name?
  parents : d.parents? = e.parents?
  scope : d.scope? = e.scope?
  attrs : ∀ n t, IsShown n → (d.attrs.get? n = some t ↔ e.attrs.get? n = some t)
  signatures : ∀ s : Signature, IsShown s.1.name →
    (s ∈ d.methods.signatures ↔ s ∈ e.methods.signatures)
  docstrings : d.docstrings? = e.docstrings?
  extra : d.extra? = e.extra?

/-! ### Normal forms -/

theorem entries_normalForm_methods (d : Description) :
    d.normalForm.methods.entries = Backend.shownSignatures d := by
  have hlist := SortedMap.entries_ofList d.methods.pairwise_signatures
  show List.filter _ (SortedMap.ofList d.methods.signatures : Methods).entries = _
  rw [hlist]
  rfl

theorem isBare_of_mem_normalForm {s : Signature} (h : s ∈ d.normalForm.methods.entries) :
    s.1.IsBare := by
  rw [entries_normalForm_methods] at h
  exact (Methods.mem_signatures_iff.1 (List.mem_filter.1 h).1).1.isBare

theorem shownAttrs_normalForm (d : Description) :
    Backend.shownAttrs d.normalForm = Backend.shownAttrs d := by
  show List.filter _ (List.filter _ d.attrs.entries) = List.filter _ d.attrs.entries
  rw [List.filter_filter]
  simp only [Bool.and_self]

/-- Once they are spelled out, public overloads stay as they are. -/
theorem shownSignatures_normalForm (d : Description) :
    Backend.shownSignatures d.normalForm = Backend.shownSignatures d := by
  have hentries : d.normalForm.methods.signatures = Backend.shownSignatures d := by
    rw [Methods.signatures_of_bare fun s => isBare_of_mem_normalForm, entries_normalForm_methods]
  rw [Backend.shownSignatures, hentries, Backend.shownSignatures, List.filter_filter]
  simp only [Bool.and_self]

theorem normalForm_normalForm (d : Description) : d.normalForm.normalForm = d.normalForm := by
  have hattrs : d.normalForm.normalForm.attrs = d.normalForm.attrs :=
    SortedMap.ext (shownAttrs_normalForm d)
  have hmethods : d.normalForm.normalForm.methods = d.normalForm.methods := by
    refine SortedMap.ext ?_
    rw [entries_normalForm_methods, entries_normalForm_methods, shownSignatures_normalForm]
  have hparts : d.normalForm.normalForm =
      { d.normalForm with
        attrs := d.normalForm.normalForm.attrs
        methods := d.normalForm.normalForm.methods } := rfl
  rw [hparts, hattrs, hmethods]

theorem defaultsTrail_of_bare {k : MethodKey} (h : k.IsBare) :
    DefaultsTrail (k.args.map (·.default?)) := by
  refine List.pairwise_map.2 (List.pairwise_of_forall_mem_list fun a ha _ _ hsome => ?_)
  rw [h a ha] at hsome
  cases hsome

theorem validate_normalForm (h : d.validate = .ok ()) : d.normalForm.validate = .ok () := by
  obtain ⟨hname, hpartial⟩ := validate_eq_ok_iff.1 h
  have hsound := validatePartial_eq_ok_iff.1 hpartial
  refine validate_eq_ok_iff.2 ⟨hname, validatePartial_eq_ok_iff.2 ⟨hsound.name, ?_, ?_⟩⟩
  · intro x hx
    exact hsound.attrs x (SortedMap.mem_filter.1 hx).1
  · intro s hs
    refine keyFault?_eq_none_iff.2 ⟨?_, defaultsTrail_of_bare (isBare_of_mem_normalForm hs)⟩
    rw [entries_normalForm_methods] at hs
    obtain ⟨x, hx, args, rest, -, -, rfl⟩ :=
      (Methods.mem_signatures_iff.1 (List.mem_filter.1 hs).1).1
    exact (keyFault?_eq_none_iff.1 (hsound.methods x hx)).1

/-- The normal form keeps the interface and nothing else. -/
theorem SameInterface.normalForm_eq (h : d.SameInterface e) : d.normalForm = e.normalForm := by
  have hattrs : d.normalForm.attrs = e.normalForm.attrs := by
    refine SortedMap.ext_mem fun x => ?_
    show x ∈ (SortedMap.filter _ d.attrs).entries ↔ x ∈ (SortedMap.filter _ e.attrs).entries
    rw [SortedMap.mem_filter, SortedMap.mem_filter, Bool.not_eq_true',
      ← SortedMap.get?_eq_some_iff_mem, ← SortedMap.get?_eq_some_iff_mem]
    exact and_congr_left fun hshown => h.attrs x.1 x.2 hshown
  have hmethods : d.normalForm.methods = e.normalForm.methods := by
    refine SortedMap.ext_mem fun s => ?_
    rw [entries_normalForm_methods, entries_normalForm_methods, Backend.shownSignatures,
      Backend.shownSignatures, List.mem_filter, List.mem_filter, Bool.not_eq_true']
    exact and_congr_left fun hshown => h.signatures s hshown
  have hparts : d.normalForm =
      { d with attrs := d.normalForm.attrs, methods := d.normalForm.methods } := rfl
  rw [hparts, hattrs, hmethods, h.name, h.parents, h.scope, h.docstrings, h.extra]
  rfl

/-- Overloads that are on offer in the same way make the same interface. -/
theorem SameInterface.of_offers {m : Methods} (h : ∀ s, m.Offers s ↔ d.methods.Offers s) :
    d.SameInterface { d with methods := m } where
  name := rfl
  parents := rfl
  scope := rfl
  attrs _ _ _ := Iff.rfl
  signatures s _ := by
    show s ∈ d.methods.signatures ↔ s ∈ m.signatures
    rw [Methods.signatures_congr h]
  docstrings := rfl
  extra := rfl

theorem validate_of_outlines {m : Methods} (h : d.validate = .ok ())
    (hm : m.outlines = d.methods.outlines) : { d with methods := m }.validate = .ok () := by
  obtain ⟨hname, hpartial⟩ := validate_eq_ok_iff.1 h
  have hsound := validatePartial_eq_ok_iff.1 hpartial
  refine validate_eq_ok_iff.2 ⟨hname, validatePartial_eq_ok_iff.2 ⟨hsound.name, hsound.attrs, ?_⟩⟩
  intro x hx
  obtain ⟨y, hy, hyname, hargs, -⟩ := Methods.exists_of_outlines hm hx
  obtain ⟨hnamed, htrail⟩ := keyFault?_eq_none_iff.1 (hsound.methods y hy)
  refine keyFault?_eq_none_iff.2 ⟨hyname ▸ hnamed, ?_⟩
  have hsome : ∀ l : List Argument, DefaultsTrail (l.map (·.default?)) ↔
      (l.map Argument.outline).Pairwise fun a b => a.2.2 = true → b.2.2 = true := fun l => by
    rw [DefaultsTrail, List.pairwise_map, List.pairwise_map]
    rfl
  rw [hsome] at htrail ⊢
  rwa [← hargs]

end Description

namespace Cython
variable {cx : RenderContext} {e : Description}

/-- Of the description itself, files only show docstrings and fragments. -/
theorem file_congr (hdocstrings : e.docstrings? = cx.desc.docstrings?)
    (hextra : e.extra? = cx.desc.extra?) (kind : ArtifactKind) :
    file kind { cx with desc := e } = file kind cx := by
  obtain ⟨desc⟩ := cx
  cases desc
  cases e
  cases hdocstrings
  cases hextra
  cases kind <;> rfl

variable {d : Description} {marker? : Option String}

theorem context_normalForm (d : Description) (name : String) (marker? : Option String) :
    backend.context d.normalForm name marker? =
      { backend.context d name marker? with desc := d.normalForm } := by
  have htypes : Backend.shownTypes d.normalForm = Backend.shownTypes d := by
    rw [Backend.shownTypes, Description.shownAttrs_normalForm,
      Description.shownSignatures_normalForm]
    rfl
  rw [Backend.context, htypes, Description.shownAttrs_normalForm,
    Description.shownSignatures_normalForm]
  rfl

theorem generate_eq_ok_normalForm {files : Artifacts}
    (h : backend.generate d marker? = .ok files) :
    backend.generate d.normalForm marker? = .ok files := by
  obtain ⟨hvalid, name, hname, rfl⟩ := Backend.generate_eq_ok_iff.1 h
  refine Backend.generate_eq_ok_iff.2
    ⟨Description.validate_normalForm hvalid, name, hname, ?_⟩
  have hfile : ∀ kind, file kind (backend.context d.normalForm name marker?) =
      file kind (backend.context d name marker?) := fun kind => by
    rw [context_normalForm]
    exact @file_congr (backend.context d name marker?) d.normalForm rfl rfl kind
  show Artifacts.mk ⟨_, file .header _⟩ ⟨_, file .declaration _⟩ ⟨_, file .implementation _⟩ =
    Artifacts.mk ⟨_, file .header _⟩ ⟨_, file .declaration _⟩ ⟨_, file .implementation _⟩
  simp only [hfile]
  rfl

/-- Every valid description is written like its normal form, which is valid and its own normal form.
So the files are the same for every description with this interface, whether its overloads are
spelled out or have defaults, and however these are worded. -/
theorem generate_normalForm (marker? : Option String) (h : d.validate = .ok ()) :
    d.normalForm.validate = .ok () ∧ d.normalForm.normalForm = d.normalForm ∧
      ∃ files, backend.generate d marker? = .ok files ∧
        backend.generate d.normalForm marker? = .ok files ∧
        (∀ e, e.validate = .ok () → d.SameInterface e → backend.generate e marker? = .ok files) ∧
        (∀ m : Methods, (∀ x ∈ m.entries, Description.keyFault? x.1 = none) →
          (∀ s, m.Offers s ↔ d.methods.Offers s) →
            backend.generate { d with methods := m } marker? = .ok files) ∧
        ∀ m : Methods, m.outlines = d.methods.outlines →
          backend.generate { d with methods := m } marker? = .ok files := by
  obtain ⟨name, -, hfiles⟩ := Backend.exists_generate h
  have hnormal := generate_eq_ok_normalForm hfiles
  have hsame : ∀ e, e.validate = .ok () → d.SameInterface e →
      backend.generate e marker? = .ok (backend.written (backend.context d name marker?)) := by
    intro e he hinterface
    obtain ⟨name', -, hfiles'⟩ := Backend.exists_generate he
    have hnormal' := generate_eq_ok_normalForm hfiles'
    rw [← hinterface.normalForm_eq, hnormal] at hnormal'
    rw [hfiles', ← hnormal']
  refine ⟨Description.validate_normalForm h, d.normalForm_normalForm, _, hfiles, hnormal, hsame,
    fun m hm hoffers => ?_, fun m hm => ?_⟩
  · obtain ⟨hname, hpartial⟩ := Description.validate_eq_ok_iff.1 h
    have hsound := Description.validatePartial_eq_ok_iff.1 hpartial
    refine hsame _ (Description.validate_eq_ok_iff.2 ⟨hname, ?_⟩) (.of_offers hoffers)
    exact Description.validatePartial_eq_ok_iff.2 ⟨hsound.name, hsound.attrs, hm⟩
  · refine hsame _ (Description.validate_of_outlines h hm) (.of_offers fun s => ?_)
    exact ⟨Methods.Offers.of_outlines hm, Methods.Offers.of_outlines hm.symm⟩

/-- The oven bakes for another while by default. -/
def slowMethods : Methods :=
  SortedMap.ofList
    [(⟨"Oven", []⟩, none), (⟨"bake", [⟨"minutes", .atomic "int", some "45"⟩]⟩, some .void)]

theorem generate_normalForm_oven :
    Backend.ovenDescription.validate = .ok () ∧
      slowMethods.outlines = Backend.ovenDescription.methods.outlines ∧
      ∃ files, backend.generate Backend.ovenDescription (some defaultMarker) = .ok files ∧
        backend.generate Backend.ovenDescription.normalForm (some defaultMarker) = .ok files ∧
        backend.generate { Backend.ovenDescription with methods := slowMethods }
          (some defaultMarker) = .ok files := by
  have hvalid : Backend.ovenDescription.validate = .ok () := rfl
  have houtlines : slowMethods.outlines = Backend.ovenDescription.methods.outlines := rfl
  obtain ⟨-, -, files, hfiles, hnormal, -, -, hworded⟩ :=
    generate_normalForm (some defaultMarker) hvalid
  exact ⟨hvalid, houtlines, files, hfiles, hnormal, hworded slowMethods houtlines⟩

end Cython

end Bindery
