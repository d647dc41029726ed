import Mathlib.Data.List.AList

/-!
# Writes in sequence: the last one wins

Environments, object folders and archives are all filled by writing keyed values one after another.
`lastWrite k ws` is the value the sequence `ws` leaves at key `k`; `writeAll` carries a sequence out
on an association list, and a lookup afterwards is the last write or else what was there before.
-/

namespace Atools.Batch

variable {κ α β : Type*} [DecidableEq κ]

/-- The value the last write to `k` carries, if there is one. -/
def lastWrite (k : κ) : List (κ × α) → Option α
  | [] => none
  | w :: ws => (lastWrite k ws).or (if w.1 = k then some w.2 else none)

theorem lastWrite_append (k : κ) (xs ys : List (κ × α)) :
    lastWrite k (xs ++ ys) = (lastWrite k ys).or (lastWrite k xs) := by
  induction xs with
  | nil => simp [lastWrite]
  | cons w ws ih => rw [List.cons_append, lastWrite, ih, lastWrite, Option.or_assoc]

theorem lastWrite_singleton (k : κ) (w : κ × α) :
    lastWrite k [w] = if w.1 = k then some w.2 else none := by
  simp [lastWrite]

theorem mem_of_lastWrite {k : κ} {ws : List (κ × α)} {x : α} (h : lastWrite k ws = some x) :
    (k, x) ∈ ws := by
  induction ws with
  | nil => simp [lastWrite] at h
  | cons w ws ih =>
    rw [lastWrite] at h
    cases hl : lastWrite k ws with
    | some y =>
      rw [hl, Option.some_or] at h
      exact List.mem_cons_of_mem _ (ih (hl.trans h))
    | none =>
      rw [hl, Option.none_or] at h
      split at h
      · rename_i hk
        have hw : w = (k, x) := Prod.ext hk (Option.some.inj h)
        exact hw ▸ List.mem_cons_self
      · simp at h

theorem lastWrite_eq_none_iff {k : κ} {ws : List (κ × α)} :
    lastWrite k ws = none ↔ ∀ w ∈ ws, w.1 ≠ k := by
  induction ws with
  | nil => simp [lastWrite]
  | cons w ws ih =>
    rw [lastWrite, Option.or_eq_none_iff, ih, List.forall_mem_cons, and_comm]
    by_cases hk : w.1 = k <;> simp [hk]

/-- Some write to a key means some last write to it. -/
theorem exists_lastWrite {k : κ} {x : α} {ws : List (κ × α)} (h : (k, x) ∈ ws) :
    ∃ y, lastWrite k ws = some y := by
  cases hl : lastWrite k ws with
  | some y => exact ⟨y, rfl⟩
  | none => exact absurd rfl (lastWrite_eq_none_iff.mp hl (k, x) h)

/-- Where every key has one value, neither order nor repetition matters. -/
theorem lastWrite_congr {ws ws' : List (κ × α)} (hmem : ∀ w, w ∈ ws ↔ w ∈ ws')
    (hvalue : ∀ k x y, (k, x) ∈ ws → (k, y) ∈ ws → x = y) (k : κ) :
    lastWrite k ws = lastWrite k ws' := by
  cases hl : lastWrite k ws with
  | some x =>
    have hx := mem_of_lastWrite hl
    obtain ⟨y, hy⟩ := exists_lastWrite ((hmem _).mp hx)
    rw [hy, hvalue k x y hx ((hmem _).mpr (mem_of_lastWrite hy))]
  | none =>
    have hnone : ∀ w ∈ ws', w.1 ≠ k :=
      fun w hw => lastWrite_eq_none_iff.mp hl w ((hmem w).mpr hw)
    exact (lastWrite_eq_none_iff.mpr hnone).symm

theorem lastWrite_map (k : κ) (f : α → β) (ws : List (κ × α)) :
    lastWrite k (ws.map fun w => (w.1, f w.2)) = (lastWrite k ws).map f := by
  induction ws with
  | nil => rfl
  | cons w ws ih =>
    rw [List.map_cons, lastWrite, ih, lastWrite]
    cases lastWrite k ws with
    | some y => rfl
    | none => by_cases hk : w.1 = k <;> simp [hk]

/-- Writing what `g` gives for each key of a list. -/
theorem lastWrite_filterMap (k : κ) (g : κ → Option α) (ks : List κ) :
    lastWrite k (ks.filterMap fun n => (g n).map fun x => (n, x)) = if k ∈ ks then g k else none := by
  induction ks with
  | nil => simp [lastWrite]
  | cons n ns ih =>
    rw [List.filterMap_cons]
    by_cases hk : n = k
    · subst hk
      cases hg : g n with
      | none => simp [ih, hg]
      | some x =>
        simp only [Option.map_some, lastWrite, ih, hg, List.mem_cons, true_or, if_true]
        split <;> rfl
    · cases hg : g n with
      | none => simp [ih, Ne.symm hk]
      | some x => simp [lastWrite, ih, hk, Ne.symm hk]

/-- Carry out a sequence of writes on an association list. -/
def writeAll (a : AList fun _ : κ => α) (ws : List (κ × α)) : AList fun _ : κ => α :=
  ws.foldl (fun a w => a.insert w.1 w.2) a

theorem lookup_writeAll (k : κ) (ws : List (κ × α)) (a : AList fun _ : κ => α) :
    (writeAll a ws).lookup k = (lastWrite k ws).or (a.lookup k) := by
  induction ws generalizing a with
  | nil => simp [writeAll, lastWrite]
  | cons w ws ih =>
    rw [writeAll, List.foldl_cons, ← writeAll, ih, lastWrite, Option.or_assoc]
    congr 1
    by_cases hk : w.1 = k
    · subst hk; simp [AList.lookup_insert]
    · rw [AList.lookup_insert_ne (Ne.symm hk)]; simp [hk]

/-- A key is present afterwards when it was written or present before. -/
theorem mem_writeAll {k : κ} {ws : List (κ × α)} {a : AList fun _ : κ => α} :
    k ∈ writeAll a ws ↔ k ∈ a ∨ ∃ x, (k, x) ∈ ws := by
  rw [← AList.lookup_isSome, lookup_writeAll, ← AList.lookup_isSome]
  cases hl : lastWrite k ws with
  | some y => simp only [Option.some_or, Option.isSome_some, true_iff]
              exact Or.inr ⟨y, mem_of_lastWrite hl⟩
  | none =>
    rw [Option.none_or]
    constructor
    · exact Or.inl
    · rintro (h | ⟨x, hx⟩)
      · exact h
      · exact absurd rfl (lastWrite_eq_none_iff.mp hl (k, x) hx)

end Atools.Batch
