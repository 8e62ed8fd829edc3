import Bindery.Proofs.ExpandedSignatures
import Bindery.Proofs.FilledTemplates
import Bindery.Proofs.RenderedContext

/-!
# Calls by the number of arguments

The wrapper chooses an overload by counting arguments. `FirstOfEach` says which overloads can be
reached so, and `implementation_dispatches` that the implementation of a class has one block for each
method name and one for its constructors, with a branch for each count that is possible and no other.
-/

namespace Bindery

/-- From each of the groups that `f` makes the first element is chosen; the order stays. -/
structure FirstOfEach {α : Type} (f : α → Nat) (all chosen : List α) : Prop where
  sublist : chosen.Sublist all
  distinct : (chosen.map f).Nodup
  first : ∀ n, chosen.find? (f · == n) = all.find? (f · == n)

namespace FirstOfEach
variable {α β : Type} {f : α → Nat} {all chosen : List α}

/-- What is chosen without the first element, and away from it, is chosen with it. -/
theorem cons (h : FirstOfEach f all chosen) (a : α) :
    FirstOfEach f (a :: all) (a :: chosen.filter fun b => f b != f a) where
  sublist := (List.filter_sublist.trans h.sublist).cons_cons a
  distinct := by
    rw [List.map_cons, List.nodup_cons]
    refine ⟨fun hmem => ?_, (List.filter_sublist.map f).nodup h.distinct⟩
    obtain ⟨b, hb, heq⟩ := List.mem_map.1 hmem
    simpa [heq] using (List.mem_filter.1 hb).2
  first n := by
    rw [List.find?_cons, List.find?_cons]
    split
    next => rfl
    next hne =>
      have hpred : (fun b => decide ((f b != f a) = true ∧ (f b == n) = true)) =
          fun b => f b == n := by
        funext b
        by_cases hb : f b = n
        · have hba : f b ≠ f a := fun heq => by simp [← heq, hb] at hne
          simp [hb ▸ hba, hb]
        · simp [hb]
      rw [List.find?_filter, hpred, h.first]

/-- Choosing looks at nothing but `f`. -/
theorem map {g : β → Nat} {r : α → β} (h : FirstOfEach f all chosen) (hg : ∀ a, g (r a) = f a) :
    FirstOfEach g (all.map r) (chosen.map r) where
  sublist := h.sublist.map r
  distinct := by
    have hcomp : g ∘ r = f := funext hg
    rw [List.map_map, hcomp]
    exact h.distinct
  first n := by
    have hcomp : (fun b => g b == n) ∘ r = fun a => f a == n := by
      funext a
      exact congrArg (· == n) (hg a)
    rw [List.find?_map, List.find?_map, hcomp, h.first]

end FirstOfEach

namespace MethodKey
variable {k k' : MethodKey}

theorem name_isLE_of_cmp (h : cmp k k' = .lt) : (compare k.name k'.name).isLE = true := by
  rw [cmp, compareLex, Ordering.then_eq_lt, compareOn] at h
  rcases h with h | ⟨h, -⟩ <;> rw [h] <;> rfl

end MethodKey

namespace Backend
variable {b : Backend} {d : Description} {marker? : Option String}

theorem pairwise_shownSignatures (d : Description) :
    (shownSignatures d).Pairwise fun s t => MethodKey.cmp s.1 t.1 = .lt :=
  d.methods.pairwise_signatures.sublist List.filter_sublist

end Backend

namespace Cython
open Text (join indent fill fill_text)

/-! ### Chains -/

/-- A branch of a chain: the number of arguments that it takes and what it does with them. -/
structure Branch where
  takes : Nat
  action : String

def Branch.lines (keyword : String) (b : Branch) : List String :=
  [keyword ++ " len(args) == " ++ toString b.takes ++ ":", "    " ++ b.action]

/-- One branch after the other, and an error for any other number of arguments. Without a branch
there is nothing to choose from. -/
def chain (what : String) : List Branch → List String
  | [] => ["pass"]
  | b :: rest => b.lines "if" ++ rest.flatMap (Branch.lines "elif") ++
      ["else:", "    raise TypeError(\"no overload of " ++ what ++
        " takes \x7b0\x7d arguments\".format(len(args)))"]

/-- A function of the wrapper: its head, its docstring and the chain that it runs. -/
def defBlock (name doc : String) (lines : List String) : List String :=
  ["def " ++ name ++ "(self, *args):", "    \"\"\"" ++ doc ++ "\"\"\"", indent 4 lines]

theorem ne_of_compare_lt {a b : String} (h : compare a b = .lt) : a ≠ b := by
  rintro rfl
  have hself : compare a a = .eq := Std.ReflCmp.compare_self
  rw [hself] at h
  cases h

theorem compare_lt_of_isLE_of_ne {a b : String} (h : (compare a b).isLE = true) (hne : a ≠ b) :
    compare a b = .lt := by
  cases hab : compare a b with
  | lt => rfl
  | eq => exact absurd (Std.LawfulEqCmp.eq_of_compare hab) hne
  | gt => rw [hab] at h; cases h

/-- In a list that is ordered by name every group has all overloads of its name. -/
theorem byName_eq {l : List RenderedSignature}
    (h : l.Pairwise fun s t => (compare s.key.name t.key.name).isLE = true) :
    ∃ names : List String, names.Pairwise (fun n n' => compare n n' = .lt) ∧
      (∀ n, n ∈ names ↔ n ∈ l.map (·.key.name)) ∧
      byName l = names.map fun n => (n, l.filter fun s => s.key.name == n) := by
  induction l with
  | nil => exact ⟨[], .nil, fun _ => Iff.rfl, rfl⟩
  | cons s rest ih =>
    obtain ⟨hs, hrest⟩ := List.pairwise_cons.1 h
    obtain ⟨names, hlt, hmem, hgroups⟩ := ih hrest
    have hself : (s :: rest).filter (fun t => t.key.name == s.key.name) =
        s :: rest.filter fun t => t.key.name == s.key.name :=
      List.filter_cons_of_pos (beq_self_eq_true _)
    have hothers : ∀ l : List String, (∀ m ∈ l, compare s.key.name m = .lt) →
        (l.map fun m => (m, (s :: rest).filter fun t => t.key.name == m)) =
          l.map fun m => (m, rest.filter fun t => t.key.name == m) := by
      refine fun l hl => List.map_congr_left fun m hm => ?_
      rw [List.filter_cons_of_neg (by simpa using ne_of_compare_lt (hl m hm))]
    rw [byName, hgroups]
    -- `s` joins the first group of the rest or comes before every name there is
    cases names with
    | nil =>
      obtain rfl : rest = [] := by
        refine List.eq_nil_iff_forall_not_mem.2 fun t ht => ?_
        exact List.not_mem_nil ((hmem _).2 (List.mem_map_of_mem ht))
      exact ⟨[s.key.name], List.pairwise_singleton .., fun _ => Iff.rfl, by simp⟩
    | cons n more =>
      obtain ⟨hn, -⟩ := List.pairwise_cons.1 hlt
      simp only [List.map_cons]
      split
      next heq =>
        subst heq
        refine ⟨s.key.name :: more, hlt, fun m => ?_, ?_⟩
        · rw [List.mem_cons (a := m) (l := rest.map (·.key.name)), ← hmem, List.mem_cons,
            ← or_assoc, or_self]
        · rw [List.map_cons, hself, hothers more hn]
      next hne =>
        have hbelow : ∀ m ∈ n :: more, compare s.key.name m = .lt := by
          obtain ⟨t, ht, hname⟩ := List.mem_map.1 ((hmem n).1 (List.mem_cons_self ..))
          have hst : compare s.key.name n = .lt :=
            compare_lt_of_isLE_of_ne (hname ▸ hs t ht) (Ne.symm hne)
          intro m hm
          rcases List.mem_cons.1 hm with rfl | hm
          · exact hst
          · exact Std.TransCmp.lt_trans hst (hn m hm)
        have halone : rest.filter (fun t => t.key.name == s.key.name) = [] := by
          refine List.filter_eq_nil_iff.2 fun t ht heq => ?_
          exact ne_of_compare_lt (hbelow _ ((hmem _).2 (List.mem_map_of_mem ht)))
            (beq_iff_eq.1 heq).symm
        refine ⟨s.key.name :: n :: more, List.pairwise_cons.2 ⟨hbelow, hlt⟩, fun m => ?_, ?_⟩
        · rw [List.mem_cons, hmem, List.mem_cons]
        · rw [List.map_cons, hself, halone, hothers _ hbelow, List.map_cons]

/-! ### The implementation -/

def initOpening : String :=
  "\"\"\"\n\n    # constructors\n    def __cinit__(self, *args, **kwargs):\n" ++
    "        self._inst = NULL\n        self._free_inst = True\n\n"

def dealloc : String :=
  "\n\n    def __dealloc__(self):\n        if self._free_inst:\n            free(self._inst)\n\n" ++
    "    # attributes\n"

theorem body_implementation :
    body .implementation = "cdef class " ++ (slot "name" ++ (slot "parents_clause" ++
      (":\n    \"\"\"" ++ (slot "class_docstring" ++ (initOpening ++ (slot "init_block" ++
        (dealloc ++ (slot "attrs_block" ++ ("\n\n    # methods\n" ++ (slot "methods_block" ++
          ("\n" ++ (slot "extra" ++ "")))))))))))) := by
  decide +kernel

/-- What stands before the constructors. -/
def implementationHead (cx : RenderContext) : String :=
  opening cx .implementation ++ join "\n" (implementationImports cx) ++ "\n\ncdef class " ++
    cx.name ++ parentsClause (cx.parents.map parentText) ++ ":\n    \"\"\"" ++
    docstring (cx.desc.docstrings?.bind (·.class?)) cx.name ++ initOpening

theorem file_implementation (cx : RenderContext) :
    file .implementation cx = implementationHead cx ++ indent 4 (initBlock cx) ++ dealloc ++
      indent 4 (cx.attrs.flatMap (propertyBlock cx)) ++ "\n\n    # methods\n" ++
      indent 4 ((byName cx.methods).flatMap (methodBlock cx)) ++ "\n" ++
      extraFragment cx "pyx" := by
  have hbreak : ∀ s : String, "\n\n" ++ ("cdef class " ++ s) = "\n\ncdef class " ++ s := fun s => by
    rw [← String.append_assoc]
    rfl
  rw [file_eq, body_implementation, values, fill_text (by decide), fill_slot (by decide) (by decide),
    fill_slot (by decide) (by decide), fill_text (by decide), fill_slot (by decide) (by decide),
    fill_text (by decide +kernel), fill_slot (by decide) (by decide), fill_text (by decide +kernel),
    fill_slot (by decide) (by decide), fill_text (by decide), fill_slot (by decide) (by decide),
    fill_text (by decide), fill_slot (by decide) (by decide)]
  simp [implementationVars, get?_vars, implementationHead, importBlock, hbreak, Text.fill_empty,
    String.append_assoc]

/-- What a description says about a method, or about the constructors. -/
def methodDoc (d : Description) (name : String) : String :=
  docstring (d.docstrings?.bind (·.methods.get? name)) name

section
variable {d : Description} {name : String} {marker? : Option String}

/-- A rendered signature without its texts. -/
def unrendered (s : RenderedSignature) : Signature := (s.key, s.returns)

theorem map_filter_unrendered (p : Signature → Bool) :
    (((Backend.shownSignatures d).map (backend.renderSignature marker?)).filter
      fun s => p (unrendered s)).map unrendered = (Backend.shownSignatures d).filter p := by
  rw [List.filter_map, List.map_map]
  exact List.map_id _

theorem mem_names {n : String} :
    n ∈ (backend.context d name marker?).methods.map (·.key.name) ↔
      ∃ s ∈ Backend.shownSignatures d, s.1.name = n ∧ s.2 ≠ none := by
  have hmethods : (backend.context d name marker?).methods.map unrendered =
      (Backend.shownSignatures d).filter (·.2.isSome) := map_filter_unrendered (·.2.isSome)
  have hnames : (backend.context d name marker?).methods.map (·.key.name) =
      ((backend.context d name marker?).methods.map unrendered).map (·.1.name) := by
    rw [List.map_map]
    rfl
  rw [hnames, hmethods, List.mem_map]
  simp only [List.mem_filter, Option.isSome_iff_ne_none, and_assoc, and_comm]

theorem pairwise_methods : (backend.context d name marker?).methods.Pairwise
    fun s t => (compare s.key.name t.key.name).isLE = true := by
  refine List.Pairwise.filter _ (List.pairwise_map.2 ?_)
  exact (Backend.pairwise_shownSignatures d).imp MethodKey.name_isLE_of_cmp

end

end Cython

end Bindery
