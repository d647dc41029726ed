import Mathlib.Data.List.DropRight

/-!
# Text as a command interpreter reads it

Lines and arguments are lists of characters.  This file has the pure text operations batch scripts
lean on: folding away letter case (names of variables, files and labels are compared without it),
trimming blanks, dropping double quotes, and the field splitting of `for /f`, where a run of
delimiters counts as one and leading delimiters are skipped.
-/

namespace Atools.Batch

/-- Text, as a list of characters. -/
abbrev Str := List Char

instance : Coe String Str := ⟨String.toList⟩

/-- Names are compared without regard to letter case. -/
def fold (s : Str) : Str := s.map Char.toLower

/-- A space or a tab. -/
def blank (c : Char) : Bool := c == ' ' || c == '\t'

/-- The text without the blanks around it. -/
def trimBlanks (s : Str) : Str := (s.dropWhile blank).rdropWhile blank

/-- The text without its double quotes. -/
def dequote (s : Str) : Str := s.filter (· != '"')

/-- The fields `for /f` cuts a line into: maximal runs of characters that are no delimiters. -/
def fields (delim : Char → Bool) (s : Str) : List Str := (s.splitOnP delim).filter (· ≠ [])

/-! ### Case folding -/

theorem fold_append (s t : Str) : fold (s ++ t) = fold s ++ fold t := List.map_append

/-- Only capital letters are folded, and only to small ones. -/
theorem eq_of_toLower_eq {c d : Char} (h : c.toLower = d)
    (hd : d.val.toNat < 97 ∨ 122 < d.val.toNat) : c = d := by
  unfold Char.toLower at h
  split at h
  · rename_i hc
    exfalso
    have h1 : 65 ≤ c.val.toNat := UInt32.le_iff_toNat_le.mp hc.1
    have h2 : c.val.toNat ≤ 90 := UInt32.le_iff_toNat_le.mp hc.2
    have h3 : (c.val + 32).toNat = d.val.toNat := congrArg (fun d : Char => d.val.toNat) h
    rw [UInt32.toNat_add] at h3
    simp only [UInt32.toNat_ofNat] at h3
    omega
  · exact h

/-! ### Trimming and quotes -/

theorem mem_trimBlanks_of_mem {s : Str} {c : Char} (hc : c ∈ s) (hb : blank c = false) :
    c ∈ trimBlanks s := by
  have keep_left : c ∈ s.dropWhile blank := by
    rw [← List.takeWhile_append_dropWhile (p := blank) (l := s), List.mem_append] at hc
    cases hc with
    | inl hc => exact absurd (List.mem_takeWhile_imp hc) (by simp [hb])
    | inr hc => exact hc
  have hsplit : (s.dropWhile blank).rdropWhile blank ++ (s.dropWhile blank).rtakeWhile blank
      = s.dropWhile blank := List.rdropWhile_append_rtakeWhile
  rw [← hsplit, List.mem_append] at keep_left
  cases keep_left with
  | inl h => exact h
  | inr h => exact absurd (List.mem_rtakeWhile_imp h) (by simp [hb])

theorem mem_of_mem_trimBlanks {s : Str} {c : Char} (hc : c ∈ trimBlanks s) : c ∈ s :=
  (List.dropWhile_suffix _).subset ((List.rdropWhile_prefix blank _).subset hc)

theorem dropWhile_blank_eq_self {s : Str} (h : ∀ c ∈ s, blank c = false) :
    s.dropWhile blank = s := by
  cases s with
  | nil => rfl
  | cons c cs => exact List.dropWhile_cons_of_neg (by rw [h c List.mem_cons_self]; simp)

/-- Text without blanks has none around it. -/
theorem trimBlanks_eq_self {s : Str} (h : ∀ c ∈ s, blank c = false) : trimBlanks s = s := by
  rw [trimBlanks, dropWhile_blank_eq_self h, List.rdropWhile_eq_self_iff]
  intro hne
  rw [h _ (List.getLast_mem hne)]
  simp

theorem mem_dequote {s : Str} {c : Char} : c ∈ dequote s ↔ c ∈ s ∧ c ≠ '"' := by
  simp [dequote]

theorem dequote_eq_self {s : Str} (h : '"' ∉ s) : dequote s = s := by
  rw [dequote, List.filter_eq_self]
  intro c hc
  have hne : c ≠ '"' := fun e => h (e ▸ hc)
  simpa using hne

/-! ### Fields -/

theorem fields_nil (delim : Char → Bool) : fields delim [] = [] := by
  simp [fields]

/-- Text without a delimiter is one field, or none when it is empty. -/
theorem fields_of_no_delim {delim : Char → Bool} {s : Str} (h : ∀ c ∈ s, delim c = false) :
    fields delim s = if s = [] then [] else [s] := by
  rw [fields, List.splitOnP_eq_singleton h]
  by_cases hs : s = [] <;> simp [hs]

/-- A delimiter separates the fields before it from those after it. -/
theorem fields_append_delim {delim : Char → Bool} (s t : Str) {d : Char} (hd : delim d = true) :
    fields delim (s ++ d :: t) = fields delim s ++ fields delim t := by
  rw [fields, List.splitOnP_append_cons s t hd, List.filter_append]
  rfl

/-- A field is never empty. -/
theorem ne_nil_of_mem_fields {delim : Char → Bool} {s f : Str} (h : f ∈ fields delim s) :
    f ≠ [] := by
  simpa using (List.mem_filter.mp h).2

/-- Text splits at its first delimiter, if it has one. -/
theorem split_first_delim (delim : Char → Bool) (s : Str) :
    (∀ c ∈ s, delim c = false) ∨
      ∃ pre d post, s = pre ++ d :: post ∧ delim d = true ∧ ∀ c ∈ pre, delim c = false := by
  induction s with
  | nil => exact Or.inl (by simp)
  | cons c s ih =>
    by_cases hc : delim c = true
    · exact Or.inr ⟨[], c, s, rfl, hc, by simp⟩
    · have hc' : delim c = false := by simpa using hc
      rcases ih with h | ⟨pre, d, post, rfl, hd, hpre⟩
      · exact Or.inl (by simpa [hc'] using h)
      · exact Or.inr ⟨c :: pre, d, post, rfl, hd, by simpa [hc'] using hpre⟩

/-- No field holds a delimiter, and its characters come from the text. -/
theorem mem_field {delim : Char → Bool} {s f : Str} (hf : f ∈ fields delim s) :
    ∀ c ∈ f, delim c = false ∧ c ∈ s := by
  induction hn : s.length using Nat.strong_induction_on generalizing s with
  | _ n ih =>
    rcases split_first_delim delim s with h | ⟨pre, d, post, rfl, hd, hpre⟩
    · rw [fields_of_no_delim h] at hf
      split at hf
      · simp at hf
      · rw [List.mem_singleton] at hf
        subst hf
        exact fun c hc => ⟨h c hc, hc⟩
    · rw [fields_append_delim _ _ hd, List.mem_append, fields_of_no_delim hpre] at hf
      rcases hf with hf | hf
      · split at hf
        · simp at hf
        · rw [List.mem_singleton] at hf
          subst hf
          exact fun c hc => ⟨hpre c hc, by simp [hc]⟩
      · have hlen : post.length < n := by rw [← hn]; simp; omega
        intro c hc
        obtain ⟨h1, h2⟩ := ih post.length hlen hf rfl c hc
        exact ⟨h1, by simp [h2]⟩

end Atools.Batch
