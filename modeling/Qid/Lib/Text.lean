/-
Texts that are joined to one.

What stands before a separator is determined by the whole and the number of separators in it, and so
is a text that follows its own length.
-/
import Mathlib.Data.List.TakeWhile

namespace Lib

section

variable {α : Type} [DecidableEq α]

theorem append_separator_inj {x : α} {l₁ l₂ r₁ r₂ : List α} (hcount : l₁.count x = l₂.count x)
    (h : l₁ ++ x :: r₁ = l₂ ++ x :: r₂) : l₁ = l₂ ∧ r₁ = r₂ := by
  induction l₁ generalizing l₂ with
  | nil =>
    cases l₂ with
    | nil => exact ⟨rfl, (List.cons.inj h).2⟩
    | cons c l =>
      obtain ⟨rfl, -⟩ := List.cons.inj h
      simp at hcount
  | cons c l ih =>
    cases l₂ with
    | nil =>
      obtain ⟨rfl, -⟩ := List.cons.inj h
      simp at hcount
    | cons d m =>
      obtain ⟨rfl, hrest⟩ := List.cons.inj h
      obtain ⟨rfl, rfl⟩ := ih (by simpa [List.count_cons] using hcount) hrest
      exact ⟨rfl, rfl⟩

end

/-- A text after its length. -/
def prefixed (a : String) : String := toString a.utf8ByteSize ++ ":" ++ a

theorem toString_inj {m n : Nat} (h : toString m = toString n) : m = n := by
  have hdigits := congrArg (fun text => Nat.ofDigitChars 10 text.toList 0) h
  simpa [Nat.toString_eq_ofList_toDigits] using hdigits

variable {x : Char}

theorem count_toString (hx : x.isDigit = false) (n : Nat) : (toString n).toList.count x = 0 := by
  refine List.count_eq_zero.mpr fun hmem => ?_
  have hdigit : x ∈ Nat.toDigits 10 n := by
    rw [← Nat.toList_repr]
    exact hmem
  rw [Nat.isDigit_of_mem_toDigits (by decide) (by decide) hdigit] at hx
  cases hx

theorem separated_inj {sep a b c d : String} (hsep : sep.toList = [x])
    (hcount : a.toList.count x = b.toList.count x) (h : a ++ (sep ++ c) = b ++ (sep ++ d)) :
    a = b ∧ c = d := by
  have hlist := congrArg String.toList h
  simp only [String.toList_append, hsep] at hlist
  obtain ⟨hab, hcd⟩ := append_separator_inj hcount hlist
  exact ⟨String.toList_injective hab, String.toList_injective hcd⟩

theorem separated_toString_inj (hx : x.isDigit = false) {sep c d : String} {m n : Nat}
    (hsep : sep.toList = [x]) (h : toString m ++ (sep ++ c) = toString n ++ (sep ++ d)) :
    m = n ∧ c = d := by
  obtain ⟨hmn, hcd⟩ := separated_inj hsep ((count_toString hx m).trans (count_toString hx n).symm) h
  exact ⟨toString_inj hmn, hcd⟩

/-- A text that begins with one of its own length is that text. -/
theorem eq_of_toList_append {a b : String} {l : List Char} (h : b.toList = a.toList ++ l)
    (hsize : a.utf8ByteSize = b.utf8ByteSize) : a = b := by
  have hb : b = a ++ String.ofList l := by
    apply String.toList_inj.mp
    rw [String.toList_append, String.toList_ofList, h]
  rw [hb, String.utf8ByteSize_append] at hsize
  have hempty : String.ofList l = "" := String.utf8ByteSize_eq_zero_iff.mp (by omega)
  rw [hb, hempty, String.append_empty]

theorem append_inj_of_utf8ByteSize {a b c d : String} (h : a ++ c = b ++ d)
    (hsize : a.utf8ByteSize = b.utf8ByteSize) : a = b ∧ c = d := by
  have hlist : a.toList ++ c.toList = b.toList ++ d.toList := by
    rw [← String.toList_append, ← String.toList_append, h]
  have hab : a = b := by
    rcases List.append_eq_append_iff.mp hlist with ⟨l, hb, -⟩ | ⟨l, ha, -⟩
    · exact eq_of_toList_append hb hsize
    · exact (eq_of_toList_append ha hsize.symm).symm
  rw [hab] at h
  exact ⟨hab, (String.append_right_inj b).mp h⟩

theorem prefixed_append_inj {a b c d : String} (h : prefixed a ++ c = prefixed b ++ d) :
    a = b ∧ c = d := by
  simp only [prefixed, String.append_assoc] at h
  obtain ⟨hsize, hrest⟩ := separated_toString_inj rfl rfl h
  exact append_inj_of_utf8ByteSize hrest hsize

end Lib
