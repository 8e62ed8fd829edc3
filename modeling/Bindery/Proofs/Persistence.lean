import Bindery.Proofs.Passes

/-!
# What more nodes change

A resolver may find more nodes than another does. Everything that looks nodes up comes then to the
same outcome with both, values and errors alike, unless it ends in an error that may be `gone` with
the larger one: `Persists` is kept by every step, and there is one lemma for each function on the
way from a single reference to a described record.
-/

namespace Bindery.Ast

/-- The outcome `x` is `y` too, unless it is an error that may be gone. -/
def Persists {ε α : Type} (gone : ε → Prop) (x y : Except ε α) : Prop :=
  y = x ∨ ∃ e, gone e ∧ x = .error e

/-- A failure is gone with its cause. -/
inductive GoneWithCause (gone : Error → Prop) : Halt → Prop where
  | failed {e : Error} : gone e → GoneWithCause gone (.failed e)

namespace Persists
variable {ε α β : Type} {gone : ε → Prop} {x y : Except ε α}

theorem refl (x : Except ε α) : Persists gone x x := .inl rfl

theorem bind {f g : α → Except ε β} (h : Persists gone x y)
    (hfg : ∀ a, x = .ok a → Persists gone (f a) (g a)) : Persists gone (x >>= f) (y >>= g) := by
  rcases h with rfl | ⟨e, he, rfl⟩
  · cases y with
    | ok a => exact hfg a rfl
    | error e => exact .refl _
  · exact .inr ⟨e, he, rfl⟩

/-- With the same continuation on both sides. -/
theorem bind_left (h : Persists gone x y) (f : α → Except ε β) :
    Persists gone (x >>= f) (y >>= f) := h.bind fun _ _ => .refl _

theorem failed {gone : Error → Prop} {x y : Except Error α} (h : Persists gone x y) :
    Persists (GoneWithCause gone) (x.mapError .failed) (y.mapError .failed) := by
  rcases h with rfl | ⟨e, he, rfl⟩
  · exact .refl _
  · exact .inr ⟨.failed e, .failed he, rfl⟩

end Persists

theorem gather_persists {ε α β : Type} {gone : ε → Prop} {f g : α → Except ε (Option β)}
    (h : ∀ a, Persists gone (f a) (g a)) (l : List α) : Persists gone (gather f l) (gather g l) := by
  induction l with
  | nil => exact .refl _
  | cons a rest ih => exact (h a).bind fun _ _ => ih.bind_left _

namespace Resolver

/-- Every reference that the one resolver follows leads to the same node in the other, and the error
for one that it cannot follow is gone if the other can. -/
def Within (gone : Error → Prop) (r r' : Resolver) : Prop :=
  ∀ id, Persists gone (r.resolve id) (r'.resolve id)

section
variable {gone : Error → Prop} {r r' : Resolver}
  {classify classify' : NodeId → Except Error (Option TypeTerm)}

theorem resolveAll_persists (h : Within gone r r') (ids : List NodeId) :
    Persists gone (r.resolveAll ids) (r'.resolveAll ids) := by
  induction ids with
  | nil => exact .refl _
  | cons id rest ih => exact (h id).bind fun _ _ => ih.bind_left _

theorem publicMembers_persists (h : Within gone r r') (c : Record) :
    Persists gone (r.publicMembers c) (r'.publicMembers c) :=
  (resolveAll_persists h c.members).bind_left _

/-! ### Types -/

theorem roleArgument_persists (h : ∀ id, Persists gone (classify id) (classify' id))
    (className : String) (members : List Node) (role : Catalog.Role) :
    Persists gone (roleArgument className classify members role)
      (roleArgument className classify' members role) := by
  unfold roleArgument
  split
  next => exact .refl _
  next n _ => exact (h n.id).bind_left _

theorem roleArguments_persists (h : ∀ id, Persists gone (classify id) (classify' id))
    (className : String) (members : List Node) (roles : List Catalog.Role) :
    Persists gone (roleArguments className classify members roles)
      (roleArguments className classify' members roles) := by
  induction roles with
  | nil => exact .refl _
  | cons role rest ih =>
    exact (roleArgument_persists h className members role).bind fun _ _ => ih.bind_left _

theorem instantiation_persists (h : Within gone r r')
    (hclassify : ∀ id, Persists gone (classify id) (classify' id)) (c : Record) :
    Persists gone (r.instantiation c classify) (r'.instantiation c classify') := by
  refine (resolveAll_persists h c.members).bind fun members _ => ?_
  dsimp only
  split
  next => exact .refl _
  split
  next => exact .refl _
  cases Catalog.roles? (Catalog.templateName c.name) with
  | none => exact .refl _
  | some roles => exact (roleArguments_persists hclassify c.name members roles).bind_left _

theorem classifyWithin_persists (h : Within gone r r') (room : Nat) (id : NodeId) :
    Persists gone (r.classifyWithin room id) (r'.classifyWithin room id) := by
  induction room generalizing id with
  | zero => exact .refl _
  | succ room ih =>
    rw [classifyWithin_succ, classifyWithin_succ]
    refine (h id).bind fun n _ => ?_
    cases n.kind with
    | derived form type => exact (ih type).bind_left _
    | typedef t =>
      dsimp only
      split
      next => exact .refl _
      next => exact ih t.type
    | record _ c =>
      dsimp only
      split
      next => exact (instantiation_persists h ih c).bind_left _
      next => exact .refl _
    | _ => exact .refl _

theorem classify_persists (h : Within gone r r') (id : NodeId) (depth : Nat) :
    Persists gone (r.classify id depth) (r'.classify id depth) :=
  classifyWithin_persists h _ id

/-! ### Members -/

theorem argument_persists (h : Within gone r r') (p : Parameter) (depth : Nat) :
    Persists gone (r.argument p depth) (r'.argument p depth) := by
  unfold argument
  split
  next => exact .refl _
  next =>
    split
    next => exact .refl _
    next => exact (classify_persists h p.type depth).bind_left _

theorem arguments_persists (h : Within gone r r') (depth : Nat) (ps : List Parameter) :
    Persists gone (r.arguments depth ps) (r'.arguments depth ps) := by
  induction ps with
  | nil => exact .refl _
  | cons p rest ih =>
    refine (argument_persists h p depth).bind fun a? _ => ?_
    cases a? with
    | none => exact .refl _
    | some a => exact ih.bind_left _

theorem returnType_persists (h : Within gone r r') (f : Function) (depth : Nat) :
    Persists gone (r.returnType f depth) (r'.returnType f depth) := by
  unfold returnType
  split
  next => exact .refl _
  next id _ => exact classify_persists h id depth

theorem overload_persists (h : Within gone r r') (f : Function) (depth : Nat) (name : String)
    {returns returns' : Except Error (Option (Option TypeTerm))}
    (hreturns : Persists gone returns returns') :
    Persists gone (r.overload f depth name returns) (r'.overload f depth name returns') := by
  unfold overload
  split
  next => exact .refl _
  next =>
    refine (arguments_persists h (depth + 1) f.parameters).bind fun args? _ => ?_
    cases args? with
    | none => exact .refl _
    | some args => exact hreturns.bind_left _

theorem signature_persists (h : Within gone r r') (role : FunctionRole) (f : Function)
    (depth : Nat) : Persists gone (r.signature role f depth) (r'.signature role f depth) := by
  cases role with
  | constructor => exact overload_persists h f depth f.name (.refl _)
  | destructor => exact overload_persists h f depth (destructorName f.name) (.refl _)
  | method =>
    exact overload_persists h f depth f.name ((returnType_persists h f depth).bind_left _)

theorem contribution_persists (h : Within gone r r') (target : NodeId) (n : Node) (depth : Nat) :
    Persists gone (r.contribution target n depth) (r'.contribution target n depth) := by
  unfold contribution
  cases n.kind with
  | field f =>
    show Persists gone (r.fieldAttr target f depth) (r'.fieldAttr target f depth)
    unfold fieldAttr
    split
    next => exact (classify_persists h f.type depth).bind_left _
    next => exact .refl _
  | function role f => exact signature_persists h role f depth
  | _ => exact .refl _

/-! ### Records -/

section
variable {target : NodeId} {c : Record}
  (hscope : Persists gone (r.scopePath c.context?) (r'.scopePath c.context?))
include hscope

theorem outline_persists (h : Within gone r r') (depth : Nat) :
    Persists gone (r.outline target c depth) (r'.outline target c depth) := by
  refine (gather_persists (fun base => classify_persists h base (depth + 1)) c.bases).bind
    fun parents _ => hscope.bind fun scope? _ => ?_
  by_cases hspelled : Catalog.isInstantiation c.name = true
  · simp only [hspelled, if_true]
    exact (classify_persists h target depth).bind_left _
  · simp only [hspelled]
    exact .refl _

theorem pass_persists (h : Within gone r r') (depth : Nat) :
    Persists gone (r.pass target c depth) (r'.pass target c depth) := by
  refine (outline_persists hscope h depth).bind fun outline _ => ?_
  refine (publicMembers_persists h c).bind fun members _ => ?_
  exact (gather_persists (fun n => contribution_persists h target n (depth + 1)) _).bind_left _

omit hscope in
/-- After a pass with a result it is clear who the members are. -/
theorem listsItself_of_pass (h : Within gone r r') {depth : Nat} {added : List Contribution}
    (hpass : r.pass target c depth = .ok added) :
    r'.listsItself target c = r.listsItself target c := by
  obtain ⟨_, -, hpass⟩ := Outcome.bind_eq_ok.1 hpass
  obtain ⟨members, hmembers, -⟩ := Outcome.bind_eq_ok.1 hpass
  rcases publicMembers_persists h c with hsame | ⟨e, -, herror⟩
  · rw [listsItself, listsItself, hsame]
  · cases hmembers.symm.trans herror

/-- A record is described alike if the scopes around it are. -/
theorem describeRecord_persists (h : Within gone r r') (name : String) :
    Persists (GoneWithCause gone) (r.describeRecord name target c)
      (r'.describeRecord name target c) := by
  have hpasses : ∀ room depth, Persists (GoneWithCause gone) (r.passes target c room depth)
      (r'.passes target c room depth) := by
    intro room
    induction room with
    | zero => exact fun _ => .refl _
    | succ room ih =>
      refine fun depth => (pass_persists hscope h depth).failed.bind fun added hadded => ?_
      rw [listsItself_of_pass h (Outcome.mapError_eq_ok.1 hadded)]
      split
      next => exact ih (depth + 1)
      next => exact .refl _
  rcases hpasses maxNesting 0 with hsame | ⟨e, he, herror⟩
  · exact .inl (by rw [describeRecord, describeRecord, hsame])
  · exact .inr ⟨e, he, describeRecord_eq_error_iff.2 herror⟩

end

end

end Resolver

end Bindery.Ast
