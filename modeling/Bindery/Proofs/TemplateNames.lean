import Mathlib.Data.List.TakeWhile
import Bindery.TypeTerm.Catalog

/-!
# The name inside a class name

A template's own name is a stretch of the class's name. `templateName_split` says what is left out
on either side of it: scopes and blanks before, arguments and blanks behind. So a class whose name
ends the template's name, be it with a destructor's tilde, has the template's name for its own.
-/

namespace Bindery

namespace Text

/-- Only blanks are trimmed. -/
theorem trimChars_split (l : List Char) :
    ∃ before after, l = before ++ trimChars l ++ after ∧
      (∀ c ∈ before, isBlank c = true) ∧ ∀ c ∈ after, isBlank c = true := by
  have hfront := (List.takeWhile_append_dropWhile (p := isBlank) (l := l)).symm
  have hback := (List.takeWhile_append_dropWhile (p := isBlank)
    (l := (l.dropWhile isBlank).reverse)).symm
  refine ⟨l.takeWhile isBlank, ((l.dropWhile isBlank).reverse.takeWhile isBlank).reverse, ?_,
    fun c hc => List.mem_takeWhile_imp hc,
    fun c hc => List.mem_takeWhile_imp (List.mem_reverse.1 hc)⟩
  rw [List.append_assoc, trimChars, ← List.reverse_append, ← hback, List.reverse_reverse, ← hfront]

end Text

namespace Catalog
open Text (isBlank trimChars trimChars_split)

/-- What follows the part up to a scope begins with the scope's colon. -/
theorem upToScope_split (l : List Char) :
    ∃ rest, l = upToScope l ++ rest ∧ ∀ c ∈ rest.head?, c = ':' := by
  fun_induction upToScope l with
  | case1 => exact ⟨[], rfl, nofun⟩
  | case2 rest => exact ⟨':' :: ':' :: rest, rfl, fun c hc => (Option.some.inj hc).symm⟩
  | case3 c rest _ ih =>
    obtain ⟨behind, hrest, hcolon⟩ := ih
    exact ⟨behind, by rw [List.cons_append, ← hrest], hcolon⟩

/-- A class's name is its template's name between a part that ends a scope or in a blank and one
that begins the arguments or with a blank. -/
theorem templateName_split (name : String) :
    ∃ before after, name.toList = before ++ (templateName name).toList ++ after ∧
      (∀ c ∈ before.getLast?, c = ':' ∨ isBlank c = true) ∧
      ∀ c ∈ after.head?, c = '<' ∨ isBlank c = true := by
  have hname := (List.takeWhile_append_dropWhile (p := (· != '<')) (l := name.toList)).symm
  have harguments : ∀ c ∈ (name.toList.dropWhile (· != '<')).head?, c = '<' := by
    intro c hc
    have hstop := List.head?_dropWhile_not (· != '<') name.toList
    rw [hc] at hstop
    simpa using hstop
  obtain ⟨scopes, hscopes, hcolon⟩ := upToScope_split (name.toList.takeWhile (· != '<')).reverse
  obtain ⟨front, back, htrim, hfront, hback⟩ :=
    trimChars_split (upToScope (name.toList.takeWhile (· != '<')).reverse).reverse
  have htemplate : (templateName name).toList =
      trimChars (upToScope (name.toList.takeWhile (· != '<')).reverse).reverse := by
    rw [templateName, String.toList_ofList]
  rw [← htemplate] at htrim
  refine ⟨scopes.reverse ++ front, back ++ name.toList.dropWhile (· != '<'), ?_, ?_, ?_⟩
  · have hhead := congrArg List.reverse hscopes
    rw [List.reverse_reverse, List.reverse_append, htrim] at hhead
    calc name.toList
        = name.toList.takeWhile (· != '<') ++ name.toList.dropWhile (· != '<') := hname
      _ = _ := by rw [hhead]; simp only [List.append_assoc]
  · intro c hc
    rw [List.getLast?_append, List.getLast?_reverse] at hc
    rcases Option.or_eq_some_iff.1 hc with hc | ⟨-, hc⟩
    · exact .inr (hfront c (List.mem_of_getLast? hc))
    · exact .inl (hcolon c hc)
  · intro c hc
    rw [List.head?_append] at hc
    rcases Option.or_eq_some_iff.1 hc with hc | ⟨-, hc⟩
    · exact .inr (hback c (List.mem_of_head? hc))
    · exact .inl (harguments c hc)

theorem length_templateName_le (name : String) :
    (templateName name).toList.length ≤ name.toList.length := by
  obtain ⟨before, after, h, -, -⟩ := templateName_split name
  rw [h]
  simp only [List.length_append]
  omega

/-- A tilde is no part that a template's name leaves out. -/
theorem ne_tilde_templateName (name : String) :
    name.toList ≠ '~' :: (templateName name).toList := by
  intro htilde
  obtain ⟨before, after, h, hbefore, hafter⟩ := templateName_split name
  rw [htilde] at h
  have hlength := congrArg List.length h
  simp only [List.length_cons, List.length_append] at hlength
  -- one character is left out, and the tildes on either side are as many
  cases before with
  | nil =>
    obtain ⟨c, rfl⟩ : ∃ c, after = [c] := List.length_eq_one_iff.1 (by simp at hlength; omega)
    have hcount := congrArg (List.count '~') h
    rw [List.nil_append, List.count_append, List.count_cons_self, Nat.add_left_cancel_iff] at hcount
    obtain rfl : c = '~' := by
      by_contra hc
      simp [hc] at hcount
    exact absurd (hafter '~' rfl) (by decide)
  | cons c rest =>
    obtain rfl : rest = [] := List.eq_nil_of_length_eq_zero (by simp at hlength; omega)
    obtain rfl : '~' = c := (List.cons.inj h).1
    exact absurd (hbefore '~' rfl) (by decide)

/-- A class name can only end the template's name, or the name of its destructor, by being it. -/
theorem templateName_eq_of_suffix {name : String}
    (h : name.toList <:+ '~' :: (templateName name).toList) : templateName name = name := by
  rcases List.suffix_cons_iff.1 h with h | h
  · exact absurd h (ne_tilde_templateName name)
  · have hlength := Nat.le_antisymm h.length_le (length_templateName_le name)
    exact (String.toList_inj.1 (h.eq_of_length hlength)).symm

end Catalog

end Bindery
