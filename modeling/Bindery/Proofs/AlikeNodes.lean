import Bindery.Proofs.ContextChain

/-!
# Documents of alike nodes

Nodes are alike if they differ at most in whether a record is a class or a struct, and in the
members of a record that is not spelled like an instantiation. Members of such a record are asked
for only where that record itself is described. So resolvers with alike nodes classify alike, walk
the same scopes and describe one and the same record alike (`describeRecord_alike`).
-/

namespace Bindery.Ast
open Outcome (Agree)

/-- The same record but for its members, and with these too if they show arguments. -/
structure Record.Alike (c c' : Record) : Prop where
  name : c'.name = c.name
  context : c'.context? = c.context?
  file : c'.file? = c.file?
  access : c'.access? = c.access?
  bases : c'.bases = c.bases
  incomplete : c'.incomplete = c.incomplete
  members : Catalog.isInstantiation c.name = true → c'.members = c.members

theorem Record.Alike.eq_of_spelled {c c' : Record} (h : c.Alike c')
    (hspelled : Catalog.isInstantiation c.name = true) : c' = c := by
  obtain ⟨name, context, file, access, bases, incomplete, members⟩ := h
  specialize members hspelled
  cases c
  cases c'
  simp_all

inductive Node.Alike : Node → Node → Prop where
  | refl (n : Node) : Alike n n
  | record {id : NodeId} {tag tag' : RecordTag} {c c' : Record} :
      c.Alike c' → Alike ⟨id, .record tag c⟩ ⟨id, .record tag' c'⟩

namespace Node.Alike
variable {n n' : Node}

theorem id (h : n.Alike n') : n'.id = n.id := by
  cases h <;> rfl

theorem name? (h : n.Alike n') : n'.name? = n.name? := by
  cases h with
  | refl => rfl
  | record hc => exact congrArg some hc.name

theorem access? (h : n.Alike n') : n'.access? = n.access? := by
  cases h with
  | refl => rfl
  | record hc => exact hc.access

theorem outer? (h : n.Alike n') : n'.outer? = n.outer? := by
  cases h with
  | refl => rfl
  | record hc => exact hc.context

theorem scopeName? (h : n.Alike n') : n'.scopeName? = n.scopeName? := by
  cases h <;> rfl

theorem isFileNamed (h : n.Alike n') (entry : String) :
    n'.isFileNamed entry = n.isFileNamed entry := by
  cases h <;> rfl

theorem isConstructorNamed (h : n.Alike n') (name : String) :
    Resolver.isConstructorNamed name n' = Resolver.isConstructorNamed name n := by
  cases h <;> rfl

end Node.Alike

/-- The same files are allowed, and the nodes are related one by one. -/
structure Resolver.Alike (R : Node → Node → Prop) (r r' : Resolver) : Prop where
  nodes : List.Forall₂ R r.nodes r'.nodes
  allowed : r'.allowed = r.allowed

/-- Records under one id, of nodes that are related. -/
structure Record.Located (R : Node → Node → Prop) (a b : NodeId × Record) : Prop where
  id : b.1 = a.1
  nodes : ∃ n n', R n n' ∧ n.id = a.1 ∧ n.record? = some a.2 ∧ n'.record? = some b.2

theorem any_eq_of_forall₂ {α β : Type} {R : α → β → Prop} {l : List α} {l' : List β} {p : α → Bool}
    {q : β → Bool} (h : List.Forall₂ R l l') (hpq : ∀ a b, R a b → q b = p a) :
    l'.any q = l.any p := by
  induction h with
  | nil => rfl
  | cons hab _ ih => rw [List.any_cons, List.any_cons, hpq _ _ hab, ih]

section
variable {R : Node → Node → Prop} {l l' : List Node}

theorem find?_alike {p : Node → Bool} (h : List.Forall₂ R l l')
    (hp : ∀ n n', R n n' → p n' = p n) : Option.Rel R (l.find? p) (l'.find? p) := by
  induction h with
  | nil => exact .none
  | @cons n n' rest rest' hn _ ih =>
    rw [List.find?_cons, List.find?_cons, hp n n' hn]
    cases p n with
    | true => exact .some hn
    | false => exact ih

theorem firstOfEachId_alike (hid : ∀ n n', R n n' → n'.id = n.id) (h : List.Forall₂ R l l') :
    List.Forall₂ R (firstOfEachId l) (firstOfEachId l') := by
  induction h with
  | nil => exact .nil
  | @cons n n' rest rest' hn _ ih =>
    refine .cons hn (List.rel_filter (fun m m' hm => ?_) ih)
    show (m.id != n.id) = true ↔ (m'.id != n'.id) = true
    rw [hid n n' hn, hid m m' hm]

variable (hR : ∀ n n', R n n' → n.Alike n')
include hR

theorem Record.Located.file {a b : NodeId × Record} (h : Record.Located R a b) :
    b.2.file? = a.2.file? := by
  obtain ⟨n, n', hn, -, hc, hc'⟩ := h.nodes
  cases hR n n' hn with
  | refl => rw [Option.some.inj (hc.symm.trans hc')]
  | record halike =>
    cases hc
    cases hc'
    exact halike.file

namespace Resolver
variable {r r' : Resolver} {name : String}

theorem resolve_alike (h : Resolver.Alike R r r') (id : NodeId) :
    Agree R (r.resolve id) (r'.resolve id) := by
  have hfind := find?_alike (p := (·.id == id)) h.nodes fun n n' hn => by rw [(hR n n' hn).id]
  unfold resolve
  generalize r.nodes.find? _ = n?, r'.nodes.find? _ = n'? at hfind
  cases hfind with
  | none => exact .error _
  | some hn => exact .ok hn

theorem resolveAll_alike (h : Resolver.Alike R r r') (ids : List NodeId) :
    Agree (List.Forall₂ R) (r.resolveAll ids) (r'.resolveAll ids) := by
  induction ids with
  | nil => exact .ok .nil
  | cons id rest ih =>
    exact (resolve_alike hR h id).bind fun n n' hn => ih.bind fun ns ns' hns => .ok (.cons hn hns)

/-! ### Types -/

theorem roleArgument_alike {className : String}
    {classify : NodeId → Except Error (Option TypeTerm)} (h : List.Forall₂ R l l')
    (role : Catalog.Role) :
    roleArgument className classify l' role = roleArgument className classify l role := by
  have hfind := find?_alike (p := (·.name? == some role.memberName)) h fun n n' hn => by
    rw [(hR n n' hn).name?]
  unfold roleArgument
  generalize l.find? _ = n?, l'.find? _ = n'? at hfind
  cases hfind with
  | none => rfl
  | some hn => simp only [(hR _ _ hn).id]

theorem roleArguments_alike {className : String}
    {classify : NodeId → Except Error (Option TypeTerm)} (h : List.Forall₂ R l l')
    (roles : List Catalog.Role) :
    roleArguments className classify l' roles = roleArguments className classify l roles := by
  induction roles with
  | nil => rfl
  | cons role rest ih => rw [roleArguments, roleArguments, roleArgument_alike hR h, ih]

theorem instantiation_alike {classify : NodeId → Except Error (Option TypeTerm)}
    (h : Resolver.Alike R r r') (c : Record) :
    r'.instantiation c classify = r.instantiation c classify := by
  refine ((resolveAll_alike hR h c.members).bind_eq fun ms ms' hms => ?_).symm
  have hany : ∀ template,
      ms'.any (isConstructorNamed template) = ms.any (isConstructorNamed template) := fun template =>
    any_eq_of_forall₂ hms fun m m' hm => (hR m m' hm).isConstructorNamed template
  simp only [hany, roleArguments_alike hR hms]

theorem classifyWithin_alike (h : Resolver.Alike R r r') (room : Nat) (id : NodeId) :
    r'.classifyWithin room id = r.classifyWithin room id := by
  induction room generalizing id with
  | zero => rfl
  | succ room ih =>
    have hclassify : r'.classifyWithin room = r.classifyWithin room := funext ih
    rw [classifyWithin_succ, classifyWithin_succ, hclassify]
    refine ((resolve_alike hR h id).bind_eq fun n n' hn => ?_).symm
    cases hR n n' hn with
    | refl => simp only [instantiation_alike hR h]
    | @record id tag tag' c c' hc =>
      dsimp only
      rw [hc.name, instantiation_alike hR h]
      split
      next hspelled => rw [hc.eq_of_spelled hspelled]
      next => rfl

theorem classify_alike (h : Resolver.Alike R r r') : r'.classify = r.classify :=
  funext fun id => funext fun _ => classifyWithin_alike hR h _ id

/-! ### Members -/

theorem argument_alike (h : Resolver.Alike R r r') : r'.argument = r.argument := by
  funext p depth
  unfold argument
  rw [classify_alike hR h]

theorem arguments_alike (h : Resolver.Alike R r r') (depth : Nat) (ps : List Parameter) :
    r'.arguments depth ps = r.arguments depth ps := by
  induction ps with
  | nil => rfl
  | cons p rest ih => rw [arguments, arguments, argument_alike hR h, ih]

theorem overload_alike (h : Resolver.Alike R r r') : r'.overload = r.overload := by
  funext f depth name returns
  unfold overload
  rw [arguments_alike hR h]

theorem returnType_alike (h : Resolver.Alike R r r') : r'.returnType = r.returnType := by
  funext f depth
  unfold returnType
  rw [classify_alike hR h]

theorem signature_alike (h : Resolver.Alike R r r') : r'.signature = r.signature := by
  funext role f depth
  unfold signature
  rw [overload_alike hR h, returnType_alike hR h]

theorem fieldAttr_alike (h : Resolver.Alike R r r') : r'.fieldAttr = r.fieldAttr := by
  funext target f depth
  unfold fieldAttr
  rw [classify_alike hR h]

/-- A record contributes nothing to others, whatever it is like. -/
theorem contribution_alike (h : Resolver.Alike R r r') {n n' : Node} (hn : n.Alike n')
    (target : NodeId) (depth : Nat) :
    r'.contribution target n' depth = r.contribution target n depth := by
  unfold contribution
  rw [signature_alike hR h, fieldAttr_alike hR h]
  cases hn <;> rfl

theorem publicMembers_alike (h : Resolver.Alike R r r') (c : Record) :
    Agree (List.Forall₂ R) (r.publicMembers c) (r'.publicMembers c) := by
  refine (resolveAll_alike hR h c.members).bind fun ns ns' hns => .ok ?_
  refine List.rel_filter (fun n n' hn => ?_) hns
  show (n.access? == _) = true ↔ (n'.access? == _) = true
  rw [(hR n n' hn).access?]

/-! ### Scopes and records -/

theorem scopesAround_alike (h : Resolver.Alike R r r') (steps : Nat) (context? : Option NodeId) :
    r'.scopesAround steps context? = r.scopesAround steps context? := by
  induction steps generalizing context? with
  | zero => cases context? <;> rfl
  | succ steps ih =>
    cases context? with
    | none => rfl
    | some id =>
      rw [scopesAround_succ, scopesAround_succ]
      refine ((resolve_alike hR h id).bind_eq fun n n' hn => ?_).symm
      rw [(hR n n' hn).outer?, (hR n n' hn).scopeName?, ih]

theorem scopePath_alike (h : Resolver.Alike R r r') : r'.scopePath = r.scopePath := by
  funext context?
  unfold scopePath
  rw [scopesAround_alike hR h, h.nodes.length_eq]

theorem gather_contribution_alike (h : Resolver.Alike R r r') (hl : List.Forall₂ R l l')
    (target : NodeId) (depth : Nat) :
    gather (r'.contribution target · depth) l' = gather (r.contribution target · depth) l := by
  induction hl with
  | nil => rfl
  | cons hn _ ih => rw [gather, gather, contribution_alike hR h (hR _ _ hn), ih]

omit hR in
theorem outline_alike (hclassify : r'.classify = r.classify) (hscope : r'.scopePath = r.scopePath) :
    r'.outline = r.outline := by
  funext id c depth
  unfold outline
  rw [hclassify, hscope]

theorem takeWhile_alike (h : List.Forall₂ R l l') (target : NodeId) :
    List.Forall₂ R (l.takeWhile (·.id != target)) (l'.takeWhile (·.id != target)) := by
  induction h with
  | nil => exact .nil
  | cons hn _ ih =>
    rw [List.takeWhile_cons, List.takeWhile_cons, (hR _ _ hn).id]
    split
    next => exact .cons hn ih
    next => exact .nil

/-- One and the same record is described alike. -/
theorem describeRecord_alike (h : Resolver.Alike R r r') (name : String) (target : NodeId)
    (c : Record) : r'.describeRecord name target c = r.describeRecord name target c := by
  have houtline := outline_alike (classify_alike hR h) (scopePath_alike hR h)
  have hmembers := publicMembers_alike hR h c
  have hpass : ∀ depth, r'.pass target c depth = r.pass target c depth := fun depth => by
    rw [pass, pass, houtline]
    refine congrArg (r.outline target c depth >>= ·) (funext fun outline => ?_)
    refine (hmembers.bind_eq fun ns ns' hns => ?_).symm
    rw [gather_contribution_alike hR h (takeWhile_alike hR hns target)]
  have hself : r'.listsItself target c = r.listsItself target c := by
    unfold listsItself
    generalize r.publicMembers c = x, r'.publicMembers c = y at hmembers
    cases hmembers with
    | ok hns => exact any_eq_of_forall₂ hns fun m m' hm => by rw [(hR _ _ hm).id]
    | error e => rfl
  exact describeRecord_congr hpass hself name

/-! ### Restricting and locating -/

theorem allow_alike (h : Resolver.Alike R r r') (entry : String) :
    Agree (Resolver.Alike R) (r.allow entry) (r'.allow entry) := by
  have hfind := find?_alike (p := (·.isFileNamed entry)) h.nodes fun n n' hn =>
    (hR n n' hn).isFileNamed entry
  unfold allow
  generalize r.nodes.find? _ = n?, r'.nodes.find? _ = n'? at hfind
  cases hfind with
  | none => exact .error _
  | some hn => exact .ok ⟨h.nodes, by rw [(hR _ _ hn).id, h.allowed]⟩

theorem restrict_alike (h : Resolver.Alike R r r') (entries : List String) :
    Agree (Resolver.Alike R) (r.restrict entries) (r'.restrict entries) := by
  induction entries generalizing r r' with
  | nil => exact .ok h
  | cons entry rest ih => exact (allow_alike hR h entry).bind fun s s' hs => ih hs

theorem recordsNamed_alike (h : Resolver.Alike R r r') (name : String) :
    List.Forall₂ (Record.Located R) (r.recordsNamed name) (r'.recordsNamed name) := by
  refine List.rel_filterMap (fun n n' hn => ?_) h.nodes
  cases hR n n' hn with
  | refl =>
    cases hrecord : n.record? with
    | none => exact .none
    | some c =>
      dsimp only
      split
      next => exact .some ⟨rfl, n, n, hn, rfl, hrecord, hrecord⟩
      next => exact .none
  | @record id tag tag' c c' hc =>
    dsimp only [Node.record?]
    rw [hc.name, hc.incomplete]
    split
    next => exact .some ⟨rfl, _, _, hn, rfl, rfl, rfl⟩
    next => exact .none

theorem locate_alike (h : Resolver.Alike R r r') (name : String) :
    Agree (Record.Located R) (r.locate name) (r'.locate name) := by
  have hrecords := recordsNamed_alike hR h name
  have hallows : r'.allows = r.allows := funext fun file? => by rw [allows, allows, h.allowed]
  unfold locate
  rw [hallows]
  generalize r.recordsNamed name = l, r'.recordsNamed name = l' at hrecords
  cases hrecords with
  | nil => exact .error _
  | @cons a b rest rest' hab hrest =>
    have hscope : List.Forall₂ (Record.Located R)
        ((a :: rest).filter fun c => r.allows c.2.file?)
        ((b :: rest').filter fun c => r.allows c.2.file?) := by
      refine List.rel_filter (fun a b hab => ?_) (.cons hab hrest)
      show r.allows a.2.file? = true ↔ r.allows b.2.file? = true
      rw [hab.file hR]
    dsimp only
    generalize (a :: rest).filter _ = m, (b :: rest').filter _ = m' at hscope
    cases hscope with
    | nil => exact .error _
    | cons hone hmore =>
      cases hmore with
      | nil => exact .ok hone
      | cons _ hmore =>
        -- of two or more only the number is told
        dsimp only [List.length_cons]
        rw [hmore.length_eq]
        exact .error _

end Resolver

end

end Bindery.Ast
