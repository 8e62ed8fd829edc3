import Bindery.Proofs.ContextChain
import Bindery.Proofs.MemberLists

/-!
# Paths of scopes

`Resolver.Outwards` follows contexts without counting. The walk that `scopePath` takes does count,
so that it ends on a circle of contexts too: `Walk` is that walk, one step after another, and it
stops with what `scopesAround` comes to. A chain of contexts that ends visits no node twice, so it
is never cut short (`scopePath_exact`). A chain that leads to no node at all may be: where it has
used up the whole document, its last reference is not looked up any more (`scopePath_dangling_iff`).
-/

namespace Bindery.Ast
open Relation

theorem exists_mem_firstOfEachId {l : List Node} {n : Node} (h : n ∈ l) :
    ∃ m ∈ firstOfEachId l, m.id = n.id := by
  induction l with
  | nil => cases h
  | cons k rest ih =>
    rcases List.mem_cons.1 h with rfl | h
    · exact ⟨n, List.mem_cons_self .., rfl⟩
    · obtain ⟨m, hm, hid⟩ := ih h
      by_cases hk : m.id = k.id
      · exact ⟨k, List.mem_cons_self .., hk.symm.trans hid⟩
      · exact ⟨m, List.mem_cons_of_mem _ (List.mem_filter.2 ⟨hm, by simpa using hk⟩), hid⟩

namespace Resolver
variable {r : Resolver} {context? end? end?' : Option NodeId} {id : NodeId} {n : Node}
  {ns ns' : List Node}

theorem resolve_ofDocument_eq_error {d : Document} (h : ∀ n ∈ d.nodes, n.id ≠ id) :
    (ofDocument d).resolve id = .error (.unresolvedReference id) := by
  have hnone : (firstOfEachId d.nodes).find? (·.id == id) = none := by
    rw [List.find?_eq_none]
    intro n hn
    simpa using h n (mem_of_mem_firstOfEachId hn)
  rw [resolve, ofDocument, hnone]
  rfl

/-! ### Chains of contexts -/

/-- From the first context outwards the nodes are visited in their order, and the last context comes
next. Only scopes and records have a context to go on to. -/
inductive Outwards (r : Resolver) : Option NodeId → List Node → Option NodeId → Prop where
  | here {context? : Option NodeId} : Outwards r context? [] context?
  | visit {id : NodeId} {n : Node} {ns : List Node} {end? : Option NodeId} :
      r.resolve id = .ok n → Outwards r n.outer? ns end? → Outwards r (some id) (n :: ns) end?

/-- Nothing is visited from there. -/
def IsEnd (r : Resolver) (end? : Option NodeId) : Prop :=
  ∀ id, end? = some id → ∃ e, r.resolve id = .error e

/-- What a walk has to say that met these scopes, the innermost first. -/
def pathOf (scopes : List String) : Option String :=
  if scopes.isEmpty then none else some (Text.join "::" scopes.reverse)

theorem scopePath_eq (r : Resolver) (context? : Option NodeId) :
    r.scopePath context? = pathOf <$> r.scopesAround r.nodes.length context? := by
  rw [scopePath]
  cases r.scopesAround r.nodes.length context? <;> rfl

namespace Outwards

theorem mem_nodes (h : r.Outwards context? ns end?) : ∀ n ∈ ns, n ∈ r.nodes := by
  induction h with
  | here => simp
  | visit hn _ ih => exact List.forall_mem_cons.2 ⟨(of_resolve_eq_ok hn).1, ih⟩

theorem eq_nil (h : r.Outwards context? ns end?) (hend : r.IsEnd context?) : ns = [] := by
  cases h with
  | here => rfl
  | visit hn _ =>
    obtain ⟨e, he⟩ := hend _ rfl
    rw [hn] at he
    cases he

/-- A chain that goes on to its end begins with every other chain from the same context. -/
theorem exists_rest (h : r.Outwards context? ns end?) (hend : r.IsEnd end?)
    (h' : r.Outwards context? ns' end?') :
    ∃ rest, ns = ns' ++ rest ∧ r.Outwards end?' rest end? := by
  induction h' generalizing ns with
  | here => exact ⟨ns, rfl, h⟩
  | visit hn' _ ih =>
    cases h with
    | here =>
      obtain ⟨e, he⟩ := hend _ rfl
      rw [hn'] at he
      cases he
    | visit hn hrest =>
      rw [hn] at hn'
      cases hn'
      obtain ⟨rest, rfl, hout⟩ := ih hrest
      exact ⟨rest, rfl, hout⟩

/-- From a node on the chain the rest of the chain goes outwards. -/
theorem of_mem (h : r.Outwards context? ns end?) (hn : n ∈ ns) :
    ∃ rest, r.Outwards n.outer? rest end? ∧ rest.length < ns.length := by
  induction h with
  | here => cases hn
  | visit _ hrest ih =>
    rcases List.mem_cons.1 hn with rfl | hn
    · exact ⟨_, hrest, Nat.lt_succ_self _⟩
    · obtain ⟨rest, hrest, hlt⟩ := ih hn
      exact ⟨rest, hrest, Nat.lt_succ_of_lt hlt⟩

/-- A node that came again would have to be followed by two chains of different lengths. -/
theorem not_mem_of_outer (h : r.Outwards n.outer? ns end?) (hend : r.IsEnd end?) : n ∉ ns := by
  intro hn
  obtain ⟨rest, hrest, hlt⟩ := h.of_mem hn
  obtain ⟨more, rfl, hmore⟩ := h.exists_rest hend hrest
  rw [hmore.eq_nil hend, List.append_nil] at hlt
  exact Nat.lt_irrefl _ hlt

theorem nodup (h : r.Outwards context? ns end?) (hend : r.IsEnd end?) : ns.Nodup := by
  induction h with
  | here => exact List.nodup_nil
  | visit _ hrest ih => exact List.nodup_cons.2 ⟨hrest.not_mem_of_outer hend, ih hend⟩

/-- From any context the chain comes to its end, unless it is as long as one likes. -/
theorem exists_of_length (r : Resolver) (context? : Option NodeId) (k : Nat) :
    ∃ ns end?, r.Outwards context? ns end? ∧ (ns.length = k ∨ r.IsEnd end?) := by
  induction k generalizing context? with
  | zero => exact ⟨[], context?, .here, .inl rfl⟩
  | succ k ih =>
    cases context? with
    | none => exact ⟨[], none, .here, .inr nofun⟩
    | some id =>
      cases hresolve : r.resolve id with
      | error e =>
        refine ⟨[], some id, .here, .inr ?_⟩
        intro id' hid
        cases hid
        exact ⟨e, hresolve⟩
      | ok n =>
        obtain ⟨ns, end?, hchain, hlong⟩ := ih n.outer?
        exact ⟨n :: ns, end?, .visit hresolve hchain, hlong.imp_left (congrArg Nat.succ)⟩

/-- The names on a chain are met in as many steps as it has nodes, and what is met in further steps
comes after them. -/
theorem scopesAround_eq (h : r.Outwards context? ns end?) (steps : Nat) :
    r.scopesAround (ns.length + steps) context? =
      (ns.filterMap Node.scopeName? ++ ·) <$> r.scopesAround steps end? := by
  induction h with
  | here =>
    rw [List.length_nil, Nat.zero_add]
    exact (id_map _).symm
  | @visit id n ns end? hn _ ih =>
    rw [List.length_cons, Nat.add_right_comm, scopesAround_succ, hn]
    show (do let outer ← r.scopesAround (ns.length + steps) n.outer?; pure _) = _
    rw [ih]
    have hnames : (n :: ns).filterMap Node.scopeName? =
        n.scopeName?.toList ++ ns.filterMap Node.scopeName? := by
      cases hname : n.scopeName? <;> simp [hname]
    cases r.scopesAround steps end? with
    | error e => rfl
    | ok outer =>
      show Except.ok (n.scopeName?.toList ++ (ns.filterMap Node.scopeName? ++ outer)) =
        Except.ok ((n :: ns).filterMap Node.scopeName? ++ outer)
      rw [hnames, List.append_assoc]

/-- A node is visited once, so the chain to an end has room in the resolver. -/
theorem length_le (h : r.Outwards context? ns end?) (hnodup : ns.Nodup) :
    ns.length ≤ r.nodes.length :=
  (hnodup.subperm h.mem_nodes).length_le

theorem length_lt (h : r.Outwards context? ns end?) (hnodup : ns.Nodup) (hn : n ∈ r.nodes)
    (hleft : n ∉ ns) : ns.length < r.nodes.length :=
  ((List.nodup_cons.2 ⟨hleft, hnodup⟩).subperm (List.forall_mem_cons.2 ⟨hn, h.mem_nodes⟩)).length_le

/-- A chain comes to a node without a context if and only if it never comes back to a node and every
context on it is found. -/
theorem ends_iff :
    (∃ ns, r.Outwards context? ns none) ↔
      (∀ ns end?, r.Outwards context? ns end? → ns.Nodup) ∧
        ∀ ns id, r.Outwards context? ns (some id) → ∃ n, r.resolve id = .ok n := by
  constructor
  · rintro ⟨ns, hchain⟩
    have hend : r.IsEnd none := nofun
    refine ⟨fun ns' end?' h' => ?_, fun ns' id h' => ?_⟩
    · obtain ⟨rest, rfl, -⟩ := hchain.exists_rest hend h'
      exact (List.nodup_append.1 (hchain.nodup hend)).1
    · obtain ⟨rest, rfl, hrest⟩ := hchain.exists_rest hend h'
      cases hrest with | visit hn _ => exact ⟨_, hn⟩
  · rintro ⟨hacyclic, hfound⟩
    obtain ⟨ns, end?, hchain, hlong⟩ := exists_of_length r context? (r.nodes.length + 1)
    have hle : ns.length ≤ r.nodes.length := hchain.length_le (hacyclic ns end? hchain)
    rcases hlong with hlong | hend
    · omega
    cases end? with
    | none => exact ⟨ns, hchain⟩
    | some id =>
      obtain ⟨n, hn⟩ := hfound ns id hchain
      obtain ⟨e, he⟩ := hend id rfl
      rw [hn] at he
      cases he

/-- The walk takes as many steps as there are nodes, so it comes to the end of such a chain. -/
theorem scopePath_eq_ok (h : r.Outwards context? ns none) :
    r.scopePath context? = .ok (pathOf (ns.filterMap Node.scopeName?)) := by
  obtain ⟨more, hmore⟩ := Nat.exists_eq_add_of_le (h.length_le (h.nodup nofun))
  rw [scopePath_eq, hmore, h.scopesAround_eq, scopesAround_none]
  show Except.ok (pathOf (ns.filterMap Node.scopeName? ++ [])) = _
  rw [List.append_nil]

/-- A context that is not found is met only if the chain leaves a step for it. -/
theorem scopePath_of_error {e : Error} (h : r.Outwards context? ns (some id))
    (hid : r.resolve id = .error e) :
    r.scopePath context? =
      if ns.length < r.nodes.length then .error e
      else .ok (pathOf (ns.filterMap Node.scopeName?)) := by
  have hend : r.IsEnd (some id) := by
    intro id' hid'
    cases hid'
    exact ⟨e, hid⟩
  obtain ⟨more, hmore⟩ := Nat.exists_eq_add_of_le (h.length_le (h.nodup hend))
  rw [scopePath_eq, hmore, h.scopesAround_eq]
  cases more with
  | zero =>
    rw [if_neg (by omega)]
    show Except.ok (pathOf (ns.filterMap Node.scopeName? ++ [])) = _
    rw [List.append_nil]
  | succ more =>
    rw [if_pos (by omega), scopesAround_succ, hid]
    rfl

end Outwards

/-! ### The walk, step by step -/

/-- A walk under way: the context that comes next, the steps taken so far, and the names met, the
innermost first. -/
structure Walk where
  next? : Option NodeId
  steps : Nat
  names : List String

namespace Walk
variable {w w' : Walk} {outcome : Except Error (List String)}

def start (context? : Option NodeId) : Walk := ⟨context?, 0, []⟩

def visit (w : Walk) (n : Node) : Walk :=
  ⟨n.outer?, w.steps + 1, w.names ++ n.scopeName?.toList⟩

inductive Step (r : Resolver) : Walk → Walk → Prop where
  | visit {w : Walk} {id : NodeId} {n : Node} :
      w.next? = some id → w.steps < r.nodes.length → r.resolve id = .ok n → Step r w (w.visit n)

/-- How a walk stops. Whether a step is left is looked at before the node is. -/
inductive Stops (r : Resolver) : Walk → Except Error (List String) → Prop where
  | outside {w : Walk} : w.next? = none → Stops r w (.ok w.names)
  | cutOff {w : Walk} {id : NodeId} :
      w.next? = some id → r.nodes.length ≤ w.steps → Stops r w (.ok w.names)
  | lost {w : Walk} {id : NodeId} {e : Error} :
      w.next? = some id → w.steps < r.nodes.length → r.resolve id = .error e →
        Stops r w (.error e)

/-- What a walk will have come to when the steps that are left are taken too. -/
def total (r : Resolver) (w : Walk) : Except Error (List String) :=
  (w.names ++ ·) <$> r.scopesAround (r.nodes.length - w.steps) w.next?

theorem total_start (r : Resolver) (context? : Option NodeId) :
    (start context?).total r = r.scopesAround r.nodes.length context? :=
  id_map _

theorem Step.total_eq (h : Step r w w') : w'.total r = w.total r := by
  cases h with | @visit id n hnext hlt hn =>
  have hleft : r.nodes.length - w.steps = r.nodes.length - (w.steps + 1) + 1 := by omega
  rw [total, total, hnext, hleft, scopesAround_succ, hn]
  show _ = _ <$> (r.scopesAround (r.nodes.length - (w.steps + 1)) n.outer? >>= fun outer => pure _)
  cases hrest : r.scopesAround (r.nodes.length - (w.steps + 1)) n.outer? with
  | error e =>
    rw [Walk.visit, hrest]
    rfl
  | ok outer =>
    rw [Walk.visit, hrest]
    show Except.ok (w.names ++ n.scopeName?.toList ++ outer) =
      Except.ok (w.names ++ (n.scopeName?.toList ++ outer))
    rw [List.append_assoc]

theorem Stops.eq_total (h : Stops r w outcome) : outcome = w.total r := by
  cases h with
  | outside hnext =>
    rw [total, hnext, scopesAround_none]
    show _ = Except.ok (w.names ++ [])
    rw [List.append_nil]
  | cutOff hnext hle =>
    rw [total, hnext, Nat.sub_eq_zero_of_le hle]
    show _ = Except.ok (w.names ++ [])
    rw [List.append_nil]
  | @lost id e hnext hlt he =>
    have hleft : r.nodes.length - w.steps = r.nodes.length - (w.steps + 1) + 1 := by omega
    rw [total, hnext, hleft, scopesAround_succ, he]
    rfl

theorem total_eq_of_steps (h : ReflTransGen (Step r) w w') : w'.total r = w.total r := by
  induction h with
  | refl => rfl
  | tail _ hstep ih => rw [hstep.total_eq, ih]

theorem steps_le (h : ReflTransGen (Step r) w w') (hw : w.steps ≤ r.nodes.length) :
    w'.steps ≤ r.nodes.length := by
  induction h with
  | refl => exact hw
  | tail _ hstep _ =>
    obtain ⟨-, hlt, -⟩ := hstep
    exact hlt

/-- Each step is one less to take. -/
theorem wellFounded_step (r : Resolver) : WellFounded fun w' w => Step r w w' := by
  refine Subrelation.wf ?_ (measure fun w : Walk => r.nodes.length - w.steps).wf
  rintro w' w ⟨-, hlt, -⟩
  show r.nodes.length - (w.steps + 1) < r.nodes.length - w.steps
  omega

theorem step_or_stops (r : Resolver) (w : Walk) :
    (∃ w', Step r w w') ∨ ∃ outcome, Stops r w outcome := by
  cases hnext : w.next? with
  | none => exact .inr ⟨_, .outside hnext⟩
  | some id =>
    rcases Nat.lt_or_ge w.steps r.nodes.length with hlt | hle
    · cases hresolve : r.resolve id with
      | ok n => exact .inl ⟨_, .visit hnext hlt hresolve⟩
      | error e => exact .inr ⟨_, .lost hnext hlt hresolve⟩
    · exact .inr ⟨_, .cutOff hnext hle⟩

theorem exists_stops (r : Resolver) (w : Walk) :
    ∃ w' outcome, ReflTransGen (Step r) w w' ∧ Stops r w' outcome := by
  induction w using (wellFounded_step r).induction with
  | _ w ih =>
    rcases step_or_stops r w with ⟨w', hstep⟩ | ⟨outcome, hstops⟩
    · obtain ⟨w'', outcome, hsteps, hstops⟩ := ih w' hstep
      exact ⟨w'', outcome, .head hstep hsteps, hstops⟩
    · exact ⟨w, outcome, .refl, hstops⟩

end Walk

/-! ### Results -/

/-- From any context the walk stops, after no more steps than there are nodes, and where it stops it
has come to the path. If the chain of contexts never comes back to a node and every context on it is
found, the path has the names of all scopes on the chain, the outermost first. -/
theorem scopePath_exact (r : Resolver) (context? : Option NodeId) :
    (WellFounded fun w' w => Walk.Step r w w') ∧
      (∃ w outcome, ReflTransGen (Walk.Step r) (.start context?) w ∧ w.Stops r outcome ∧
        w.steps ≤ r.nodes.length) ∧
      (∀ w outcome, ReflTransGen (Walk.Step r) (.start context?) w → w.Stops r outcome →
        r.scopePath context? = pathOf <$> outcome) ∧
      ((∀ ns end?, r.Outwards context? ns end? → ns.Nodup) →
        (∀ ns id, r.Outwards context? ns (some id) → ∃ n, r.resolve id = .ok n) →
          ∃ ns, r.Outwards context? ns none ∧ ns.length ≤ r.nodes.length ∧
            r.scopePath context? = .ok (pathOf (ns.filterMap Node.scopeName?))) := by
  refine ⟨Walk.wellFounded_step r, ?_, fun w outcome hsteps hstops => ?_, fun hacyclic hfound => ?_⟩
  · obtain ⟨w, outcome, hsteps, hstops⟩ := Walk.exists_stops r (.start context?)
    exact ⟨w, outcome, hsteps, hstops, Walk.steps_le hsteps (Nat.zero_le _)⟩
  · rw [scopePath_eq, hstops.eq_total, Walk.total_eq_of_steps hsteps, Walk.total_start]
  · obtain ⟨ns, hchain⟩ := Outwards.ends_iff.2 ⟨hacyclic, hfound⟩
    exact ⟨ns, hchain, hchain.length_le (hchain.nodup nofun), hchain.scopePath_eq_ok⟩

/-- An oven in a kitchen: each context leads on to the next node, and no node is left over. -/
def kitchenDocument : Document where
  nodes := [⟨"oven", .record .ofClass ⟨"Oven", some "kitchen", none, none, [], [], false⟩⟩,
    ⟨"kitchen", .scope ⟨"kitchen", some "home"⟩⟩, ⟨"home", .scope ⟨"home", some "all"⟩⟩,
    ⟨"all", .scope ⟨"::", none⟩⟩]

theorem scopePath_exact_kitchen :
    (∀ ns end?, (ofDocument kitchenDocument).Outwards (some "oven") ns end? → ns.Nodup) ∧
      (∀ ns id, (ofDocument kitchenDocument).Outwards (some "oven") ns (some id) →
        ∃ n, (ofDocument kitchenDocument).resolve id = .ok n) ∧
      (∃ ns, (ofDocument kitchenDocument).Outwards (some "oven") ns none ∧
        ns.length ≤ (ofDocument kitchenDocument).nodes.length ∧
        (ofDocument kitchenDocument).scopePath (some "oven") =
          .ok (pathOf (ns.filterMap Node.scopeName?))) ∧
      (ofDocument kitchenDocument).scopePath (some "oven") = .ok (some "home::kitchen") := by
  have hchain : (ofDocument kitchenDocument).Outwards (some "oven") kitchenDocument.nodes none :=
    .visit rfl (.visit rfl (.visit rfl (.visit rfl .here)))
  obtain ⟨hacyclic, hfound⟩ := Outwards.ends_iff.1 ⟨_, hchain⟩
  obtain ⟨-, -, -, hexact⟩ := scopePath_exact (ofDocument kitchenDocument) (some "oven")
  exact ⟨hacyclic, hfound, hexact hacyclic hfound, rfl⟩

/-- On a circle the walk is cut off. -/
example : (ofDocument ⟨[⟨"inner", .scope ⟨"inner", some "outer"⟩⟩,
    ⟨"outer", .scope ⟨"outer", some "inner"⟩⟩]⟩).scopePath (some "inner") =
      .ok (some "outer::inner") := rfl

/-! ### References that lead nowhere -/

section
variable {d : Document}

/-- A chain is shorter than the document if and only if some node of the document is not on it. -/
theorem Outwards.length_lt_iff (h : (ofDocument d).Outwards context? ns end?) (hnodup : ns.Nodup) :
    ns.length < (ofDocument d).nodes.length ↔ ∃ n ∈ d.nodes, n.id ∉ ns.map (·.id) := by
  constructor
  · intro hlt
    by_contra hall
    have hsubset : ∀ id ∈ (ofDocument d).nodes.map (·.id), id ∈ ns.map (·.id) := by
      intro id hid
      obtain ⟨n, hn, rfl⟩ := List.mem_map.1 hid
      by_contra hleft
      exact hall ⟨n, mem_of_mem_firstOfEachId hn, hleft⟩
    have hids : ((ofDocument d).nodes.map (·.id)).Nodup :=
      List.pairwise_map.2 (pairwise_firstOfEachId d.nodes)
    have hle := (hids.subperm hsubset).length_le
    rw [List.length_map, List.length_map] at hle
    omega
  · rintro ⟨n, hn, hleft⟩
    obtain ⟨m, hm, hid⟩ := exists_mem_firstOfEachId hn
    refine h.length_lt hnodup hm fun hmem => hleft ?_
    rw [← hid]
    exact List.mem_map_of_mem hmem

/-- A chain of contexts that leads to an id without a node fails with that id if and only if some
node of the document is not on the chain; if none is left over, the reference is passed over. It is
never passed over on the way out of a node. -/
theorem scopePath_dangling_iff (hchain : (ofDocument d).Outwards context? ns (some id))
    (hid : ∀ n ∈ d.nodes, n.id ≠ id) :
    ns.Nodup ∧
      ((ofDocument d).scopePath context? = .error (.unresolvedReference id) ↔
        ∃ n ∈ d.nodes, n.id ∉ ns.map (·.id)) ∧
      ((∀ n ∈ d.nodes, n.id ∈ ns.map (·.id)) →
        (ofDocument d).scopePath context? = .ok (pathOf (ns.filterMap Node.scopeName?))) ∧
      ∀ n ∈ (ofDocument d).nodes, n.outer? = context? →
        (ofDocument d).scopePath context? = .error (.unresolvedReference id) := by
  have herror := resolve_ofDocument_eq_error hid
  have hend : (ofDocument d).IsEnd (some id) := by
    intro id' hid'
    cases hid'
    exact ⟨_, herror⟩
  have hnodup := hchain.nodup hend
  have hpath := hchain.scopePath_of_error herror
  refine ⟨hnodup, ?_, fun hall => ?_, fun n hn houter => ?_⟩
  · rw [← hchain.length_lt_iff hnodup, hpath]
    split <;> simp [*]
  · rw [hpath, if_neg]
    rw [hchain.length_lt_iff hnodup]
    rintro ⟨n, hn, hleft⟩
    exact hleft (hall n hn)
  · subst houter
    rw [hpath, if_pos (hchain.length_lt hnodup hn (hchain.not_mem_of_outer hend))]

/-- A kitchen in a home that is nowhere, and an oven that is left over. -/
def homelessDocument : Document where
  nodes := [⟨"kitchen", .scope ⟨"kitchen", some "home"⟩⟩,
    ⟨"oven", .record .ofClass ⟨"Oven", some "kitchen", none, none, [], [], false⟩⟩]

theorem scopePath_dangling_iff_homeless :
    (ofDocument homelessDocument).Outwards (some "kitchen")
        [⟨"kitchen", .scope ⟨"kitchen", some "home"⟩⟩] (some "home") ∧
      (∀ n ∈ homelessDocument.nodes, n.id ≠ "home") ∧
      (ofDocument homelessDocument).scopePath (some "kitchen") =
        .error (.unresolvedReference "home") := by
  have hchain : (ofDocument homelessDocument).Outwards (some "kitchen")
      [⟨"kitchen", .scope ⟨"kitchen", some "home"⟩⟩] (some "home") := .visit rfl .here
  have hid : ∀ n ∈ homelessDocument.nodes, n.id ≠ "home" := by decide
  obtain ⟨-, hiff, -, -⟩ := scopePath_dangling_iff hchain hid
  exact ⟨hchain, hid, hiff.2 (by decide)⟩

/-- The chain from the oven uses up the document, and the home that is nowhere is not looked up. -/
theorem scopePath_passes_over :
    ¬ ∀ (d : Document) (context? : Option NodeId) (ns : List Node) (id : NodeId),
      (ofDocument d).Outwards context? ns (some id) → ns.Nodup → (∀ n ∈ d.nodes, n.id ≠ id) →
        (ofDocument d).scopePath context? = .error (.unresolvedReference id) := by
  intro h
  have hchain : (ofDocument homelessDocument).Outwards (some "oven") homelessDocument.nodes.reverse
      (some "home") := .visit rfl (.visit rfl .here)
  have herror := h homelessDocument (some "oven") _ "home" hchain (by decide) (by decide)
  have hok : (ofDocument homelessDocument).scopePath (some "oven") = .ok (some "kitchen") := rfl
  rw [hok] at herror
  cases herror

end

end Resolver

end Bindery.Ast
