import Atools.Steps

/-!
# What the archives of the out folders hold

A record says for every out folder which sources have been archived there and with which flags, in
order; `none` stands for no archive.  `ArchiveHolds` is the agreement of an archive with its part of
the record.  Archiving more keeps it (`ArchiveHolds.extend`), and so does a note about one out folder
for all of them (`holds_noteOut`).
-/

namespace Atools

open Batch

/-- For every out folder with an archive the sources and flags archived there, in order. -/
abbrev Archives := Str → Option (List (Str × List Str))

/-- The record of a repository without out folders. -/
def noArchives : Archives := fun _ => none

/-- The out folder of the settings, if it is one folder next to the scripts. -/
def outFolder (env : Env) : Option Str :=
  match segs (env.text "LIBAROMA_OUT") with
  | [.down o] => some o
  | _ => none

theorem outFolder_of_named {env : Env} {o : Str} (h : OutNamed env o) : outFolder env = some o := by
  rw [outFolder, h.2.1]

/-- The record with a new entry for the out folder of the settings, unless they are incomplete. -/
def noteOut (env : Env) (f : Option (List (Str × List Str)) → List (Str × List Str))
    (g : Archives) : Archives :=
  fun o => if complete env ∧ outFolder env = some o then some (f (g o)) else g o

section Note

variable {env : Env} {o : Str} (f : Option (List (Str × List Str)) → List (Str × List Str))
  (g : Archives)

theorem noteOut_of_ne {o' : Str} (hout : OutNamed env o) (hne : o' ≠ o) :
    noteOut env f g o' = g o' := by
  rw [noteOut, if_neg]
  rintro ⟨_, heq⟩
  rw [outFolder_of_named hout] at heq
  exact hne (Option.some.inj heq).symm

theorem noteOut_self (hout : OutNamed env o) (hcomplete : complete env) :
    noteOut env f g o = some (f (g o)) :=
  if_pos ⟨hcomplete, outFolder_of_named hout⟩

theorem noteOut_incomplete (h : ¬ complete env) : noteOut env f g = g := by
  funext o
  exact if_neg fun hcon => h hcon.1

end Note

/-- What holds of the entry for the out folder of the settings, or of a list in its place. -/
theorem getD_iff_forall {env : Env} {o : Str} (hout : OutNamed env o) (g : Archives)
    {P : List (Str × List Str) → Prop} {ys : List (Str × List Str)} (hys : P ys) :
    P ((g o).getD ys) ↔ ∀ o' ∈ outFolder env, ∀ xs ∈ g o', P xs := by
  rw [outFolder_of_named hout]
  constructor
  · intro h o' ho' xs hxs
    obtain rfl : o = o' := Option.some.inj ho'
    rw [show g o = some xs from hxs] at h
    exact h
  · intro h
    cases hg : g o with
    | none => exact hys
    | some xs => exact h o rfl xs hg

/-- An archive holds what is recorded for it: under each name the source and the flags written last,
and nothing else. -/
def ArchiveHolds (d : Disk File) (p : Path) (n : Str) : Option (List (Str × List Str)) → Prop
  | none => d.file p n = none
  | some xs => ∃ a, d.file p n = some (.archive a) ∧
      ∀ m, (a.lookup m).map (fun x => (x.src, x.flags)) =
        lastWrite m (xs.map fun x => (objectName x.1, x))

variable {d d' : Disk File} {p : Path} {n : Str} {ox : Option (List (Str × List Str))}

theorem ArchiveHolds.congr (h : ArchiveHolds d p n ox) (heq : d'.file p n = d.file p n) :
    ArchiveHolds d' p n ox := by
  cases ox with
  | none => exact heq.trans h
  | some xs =>
    obtain ⟨a, ha, hlookup⟩ := h
    exact ⟨a, heq.trans ha, hlookup⟩

/-- The members before, as far as they are recorded. -/
theorem ArchiveHolds.members (h : ArchiveHolds d p n ox) (m : Str) :
    ((members d (p ++ [n])).lookup m).map (fun x => (x.src, x.flags)) =
      lastWrite m ((ox.getD []).map fun x => (objectName x.1, x)) := by
  cases ox with
  | none =>
    rw [Atools.members, Disk.fileAt_concat, show d.file p n = none from h]
    rfl
  | some xs =>
    obtain ⟨a, ha, hlookup⟩ := h
    rw [Atools.members, Disk.fileAt_concat, ha]
    exact hlookup m

/-- **More in the archive**, more in the record. -/
theorem ArchiveHolds.extend (h : ArchiveHolds d p n ox) {a : Members} {ws : List (Str × Obj)}
    {xs : List (Str × List Str)} (ha : d'.file p n = some (.archive a))
    (hlookup : ∀ m, a.lookup m = (lastWrite m ws).or ((Atools.members d (p ++ [n])).lookup m))
    (hws : ws.map (fun w => (w.1, (w.2.src, w.2.flags))) = xs.map fun x => (objectName x.1, x)) :
    ArchiveHolds d' p n (some (ox.getD [] ++ xs)) := by
  refine ⟨a, ha, fun m => ?_⟩
  rw [hlookup, List.map_append, lastWrite_append, ← h.members, ← hws,
    lastWrite_map m (fun x : Obj => (x.src, x.flags))]
  cases lastWrite m ws <;> rfl

/-! ### Archives that hold the same -/

/-- Two archives that hold the same sources with the same flags. -/
def SameArchive (d d' : Disk File) (p : Path) (n : Str) : Prop :=
  (d'.file p n).isSome = (d.file p n).isSome ∧
    ∀ m, ((members d' (p ++ [n])).lookup m).map (fun x => (x.src, x.flags)) =
      ((members d (p ++ [n])).lookup m).map fun x => (x.src, x.flags)

/-- Archives with the same record are the same. -/
theorem ArchiveHolds.same (h : ArchiveHolds d p n ox)
    (h' : ArchiveHolds d' p n ox) : SameArchive d d' p n := by
  refine ⟨?_, fun m => (h'.members m).trans (h.members m).symm⟩
  cases ox with
  | none => rw [show d.file p n = none from h, show d'.file p n = none from h']
  | some xs =>
    obtain ⟨a, ha, _⟩ := h
    obtain ⟨a', ha', _⟩ := h'
    rw [ha, ha']; rfl

theorem SameArchive.refl (d : Disk File) (p : Path) (n : Str) : SameArchive d d p n :=
  ⟨rfl, fun _ => rfl⟩

theorem SameArchive.trans {d₁ d₂ d₃ : Disk File} (h : SameArchive d₁ d₂ p n)
    (h' : SameArchive d₂ d₃ p n) : SameArchive d₁ d₃ p n :=
  ⟨h'.1.trans h.1, fun m => (h'.2 m).trans (h.2 m)⟩

/-- The same file holds the same. -/
theorem SameArchive.of_eq (h : d'.file p n = d.file p n) : SameArchive d d' p n := by
  refine ⟨by rw [h], fun m => ?_⟩
  rw [members, members, Disk.fileAt_concat, Disk.fileAt_concat, h]

/-! ### Records of all out folders -/

/-- A note about one out folder is right for all of them when nothing else has changed. -/
theorem holds_noteOut {r : Path} {o : Str} {env : Env} {g : Archives}
    {f : Option (List (Str × List Str)) → List (Str × List Str)}
    (h : ∀ o', outFolderName o' → ArchiveHolds d (r ++ [o']) n (g o')) (hout : OutNamed env o)
    (hcomplete : complete env) (hframe : ∀ q, ¬ r ++ [o] <+: q → d'.folder q = d.folder q)
    (hnew : ArchiveHolds d' (r ++ [o]) n (some (f (g o)))) :
    ∀ o', outFolderName o' → ArchiveHolds d' (r ++ [o']) n (noteOut env f g o') := by
  intro o' ho'
  by_cases heq : o' = o
  · rw [heq, noteOut_self f g hout hcomplete]
    exact hnew
  · rw [noteOut_of_ne f g hout heq]
    exact (h o' ho').congr ((unchanged_of_frame hframe heq).file List.prefix_rfl n)

/-- What holds of all entries of a record. -/
theorem forall_noteOut {P : Str × List Str → Prop} {o : Str} {env : Env} {g : Archives}
    {f : Option (List (Str × List Str)) → List (Str × List Str)}
    (h : ∀ o' xs, g o' = some xs → ∀ x ∈ xs, P x) (hout : OutNamed env o)
    (hcomplete : complete env) (hnew : ∀ x ∈ f (g o), P x) :
    ∀ o' xs, noteOut env f g o' = some xs → ∀ x ∈ xs, P x := by
  intro o' xs hxs
  by_cases heq : o' = o
  · rw [heq, noteOut_self f g hout hcomplete, Option.some.injEq] at hxs
    rw [← hxs]
    exact hnew
  · rw [noteOut_of_ne f g hout heq] at hxs
    exact h o' xs hxs

end Atools
