import Atools.Batch.Text
import Atools.Batch.LastWrite
import Mathlib.Data.List.Infix

/-!
# Folders, files and relative paths

A path is the list of folder names from the root of the drive.  `resolve` is how a path text is read
from the current folder: it is cut at `\` and `/`, empty parts and `.` are skipped, `..` goes up and
stays at the root there, trailing dots of a name do not count, and letter case is folded away.

A `Disk` gives every existing folder the files in it.  It carries the proofs that the folder above
an existing folder exists and that no name is both a file and a folder, so a tree with a hole in it
or with a file in the place of a folder cannot be built.  `mkdir` therefore fails where a file
stands in the way, and a file cannot be written over a folder.
-/

namespace Atools.Batch

/-- Folder names from the root of the drive. -/
abbrev Path := List Str

/-- One part of a path text. -/
inductive Seg
  | up
  | down (name : Str)
  deriving DecidableEq

/-- The two path separators. -/
def sep (c : Char) : Bool := c == '\\' || c == '/'

/-- A text that can name a folder or a file: nothing in it the file system refuses, and no blank or dot
at its end. -/
def nameable (s : Str) : Bool :=
  s.all (fun c => c ∉ "\"*:<>?|\t".toList) && s.getLast?.all fun c => c != ' ' && c != '.'

/-- A name without its trailing dots, which the file system drops. -/
def normalName (s : Str) : Str := if s.all (· == '.') then s else s.rdropWhile (· == '.')

/-- What one field of a path text means; `.` means nothing. -/
def segOf (f : Str) : Option Seg :=
  if f = ['.'] then none
  else if f = ['.', '.'] then some .up
  else some (.down (fold (normalName f)))

/-- The parts of a path text. -/
def segs (s : Str) : List Seg := (fields sep s).filterMap segOf

/-- Follow one part from a folder. -/
def stepPath (p : Path) : Seg → Path
  | .up => p.dropLast
  | .down n => p ++ [n]

/-- Follow the parts of a path from a folder. -/
def walk (p : Path) (l : List Seg) : Path := l.foldl stepPath p

theorem not_concat_prefix_self (p : Path) (n : Str) : ¬ p ++ [n] <+: p := by
  intro h
  have hlen := h.length_le
  rw [List.length_append, List.length_singleton] at hlen
  omega

/-- A path text that starts at the root of the drive. -/
def rooted (s : Str) : Bool :=
  match s with
  | [] => false
  | c :: _ => sep c

/-- The path a text names, read in the folder `cwd`. -/
def resolve (cwd : Path) (s : Str) : Path := walk (if rooted s then [] else cwd) (segs s)

theorem segs_append_sep (s t : Str) {d : Char} (hd : sep d = true) :
    segs (s ++ d :: t) = segs s ++ segs t := by
  rw [segs, fields_append_delim s t hd, List.filterMap_append]
  rfl

theorem segs_snoc_sep (s : Str) {d : Char} (hd : sep d = true) : segs (s ++ [d]) = segs s := by
  rw [segs_append_sep s [] hd]
  simp [segs, fields_nil]

@[simp] theorem walk_nil (p : Path) : walk p [] = p := rfl

@[simp] theorem walk_down (p : Path) (n : Str) (l : List Seg) :
    walk p (.down n :: l) = walk (p ++ [n]) l := rfl

@[simp] theorem walk_up (p : Path) (l : List Seg) : walk p (.up :: l) = walk p.dropLast l := rfl

/-- A name that means one folder below the current one, whatever its letter case. -/
def plainName (n : Str) : Bool := !n.isEmpty && n.all fun c => !(sep c || c == '.')

theorem plainName_of_fold {s : Str} (h : plainName (fold s) = true) : plainName s = true := by
  simp only [plainName, Bool.and_eq_true, Bool.not_eq_true', List.all_eq_true,
    Bool.or_eq_false_iff, beq_eq_false_iff_ne, List.isEmpty_eq_false_iff] at h ⊢
  refine ⟨fun hs => h.1 (by rw [hs]; rfl), fun c hc => ?_⟩
  have hfold := h.2 c.toLower (List.mem_map_of_mem hc)
  have hback : c ≠ '\\' := by
    rintro rfl
    exact absurd hfold.1 (by decide)
  have hslash : c ≠ '/' := by
    rintro rfl
    exact absurd hfold.1 (by decide)
  have hdot : c ≠ '.' := by
    rintro rfl
    exact hfold.2 (by decide)
  exact ⟨by simp [sep, hback, hslash], hdot⟩

theorem segs_of_plain {s : Str} (h : plainName s = true) : segs s = [.down (fold s)] := by
  simp only [plainName, Bool.and_eq_true, Bool.not_eq_true', List.all_eq_true,
    Bool.or_eq_false_iff, beq_eq_false_iff_ne, List.isEmpty_eq_false_iff] at h
  obtain ⟨hne, hall⟩ := h
  have hdot : ∀ c ∈ s, c ≠ '.' := fun c hc => (hall c hc).2
  have hnormal : normalName s = s := by
    unfold normalName
    split
    · rfl
    · rw [List.rdropWhile_eq_self_iff]
      intro hs
      simpa using hdot _ (List.getLast_mem hs)
  have hseg : segOf s = some (.down (fold s)) := by
    rw [segOf, if_neg, if_neg, hnormal]
    · rintro rfl
      exact hdot '.' (by simp) rfl
    · rintro rfl
      exact hdot '.' (by simp) rfl
  rw [segs, fields_of_no_delim fun c hc => (hall c hc).1, if_neg hne]
  simp [hseg]

/-- Dropping the trailing dots of a name leaves its plain beginning alone. -/
theorem exists_normalName {pre : Str} (hpre : plainName pre = true) (s : Str) :
    ∃ t, normalName (pre ++ s) = pre ++ t := by
  simp only [plainName, Bool.and_eq_true, Bool.not_eq_true', List.all_eq_true,
    Bool.or_eq_false_iff, beq_eq_false_iff_ne, List.isEmpty_eq_false_iff] at hpre
  obtain ⟨hne, hall⟩ := hpre
  have hdots : (pre ++ s).all (· == '.') = false := by
    obtain ⟨c, hc⟩ := List.exists_mem_of_ne_nil pre hne
    rw [List.all_eq_false]
    exact ⟨c, List.mem_append_left s hc, by simpa using (hall c hc).2⟩
  rw [normalName, hdots, if_neg Bool.false_ne_true]
  induction s using List.reverseRecOn with
  | nil =>
    refine ⟨[], ?_⟩
    rw [List.append_nil, List.rdropWhile_eq_self_iff]
    intro hl
    simpa using (hall _ (List.getLast_mem hl)).2
  | append_singleton s c ih =>
    by_cases hc : c = '.'
    · have hdots' : (pre ++ s).all (· == '.') = false := by
        obtain ⟨c, hc⟩ := List.exists_mem_of_ne_nil pre hne
        rw [List.all_eq_false]
        exact ⟨c, List.mem_append_left s hc, by simpa using (hall c hc).2⟩
      obtain ⟨t, ht⟩ := ih hdots'
      refine ⟨t, ?_⟩
      rw [← List.append_assoc, List.rdropWhile_concat_pos _ _ _ (by simpa using hc), ht]
    · refine ⟨s ++ [c], ?_⟩
      rw [← List.append_assoc, List.rdropWhile_concat_neg _ _ _ (by simpa using hc)]

/-- A path text with a plain beginning that names one folder names one with that beginning. -/
theorem prefix_of_segs {pre s n : Str} (hpre : plainName pre = true)
    (h : segs (pre ++ s) = [.down n]) : fold pre <+: n := by
  have hsep : ∀ c ∈ pre, sep c = false := by
    simp only [plainName, Bool.and_eq_true, List.all_eq_true, Bool.not_eq_true',
      Bool.or_eq_false_iff] at hpre
    exact fun c hc => (hpre.2 c hc).1
  have hne : pre ≠ [] := by
    rintro rfl
    simp [plainName] at hpre
  have hfirst : ∃ t rest, fields sep (pre ++ s) = (pre ++ t) :: rest := by
    rcases split_first_delim sep s with hs | ⟨t, d, post, rfl, hd, ht⟩
    · refine ⟨s, [], ?_⟩
      rw [fields_of_no_delim, if_neg (by simp [hne])]
      exact fun c hc => (List.mem_append.mp hc).elim (hsep c) (hs c)
    · refine ⟨t, fields sep post, ?_⟩
      rw [← List.append_assoc, fields_append_delim _ _ hd, fields_of_no_delim,
        if_neg (by simp [hne])]
      · rfl
      · exact fun c hc => (List.mem_append.mp hc).elim (hsep c) (ht c)
  obtain ⟨t, rest, hfields⟩ := hfirst
  obtain ⟨t', ht'⟩ := exists_normalName hpre t
  have hdot : ∀ c ∈ pre, c ≠ '.' := by
    simp only [plainName, Bool.and_eq_true, List.all_eq_true, Bool.not_eq_true',
      Bool.or_eq_false_iff, beq_eq_false_iff_ne] at hpre
    exact fun c hc => (hpre.2 c hc).2
  have hseg : segOf (pre ++ t) = some (.down (fold pre ++ fold t')) := by
    obtain ⟨c, cs, rfl⟩ := List.exists_cons_of_ne_nil hne
    have hc := hdot c List.mem_cons_self
    rw [segOf, if_neg, if_neg, ht', fold_append]
    · simp [hc]
    · simp [hc]
  rw [segs, hfields, List.filterMap_cons, hseg] at h
  obtain ⟨hn, _⟩ := List.cons.inj h
  rw [← Seg.down.inj hn]
  exact List.prefix_append _ _

theorem not_rooted_of_plain {s : Str} (h : plainName s = true) (t : Str) :
    rooted (s ++ t) = false := by
  cases s with
  | nil => simp [plainName] at h
  | cons c cs =>
    simp only [plainName, Bool.and_eq_true, List.all_eq_true, Bool.not_eq_true',
      Bool.or_eq_false_iff] at h
    exact (h.2 c List.mem_cons_self).1

theorem resolve_of_not_rooted (cwd : Path) {s : Str} (h : rooted s = false) :
    resolve cwd s = walk cwd (segs s) := by
  rw [resolve, h]; rfl

/-- A plain name is a folder or file right below the current folder. -/
theorem resolve_plain (cwd : Path) {s : Str} (h : plainName s = true) :
    resolve cwd s = cwd ++ [fold s] := by
  have hroot := not_rooted_of_plain h []
  rw [List.append_nil] at hroot
  rw [resolve_of_not_rooted cwd hroot, segs_of_plain h]; rfl

theorem resolve_plain_sep (cwd : Path) {s : Str} (h : plainName s = true) :
    resolve cwd (s ++ ['\\']) = cwd ++ [fold s] := by
  rw [resolve_of_not_rooted cwd (not_rooted_of_plain h _), segs_snoc_sep s (by decide),
    segs_of_plain h]; rfl

/-- `..\..\` goes up twice, whatever follows. -/
theorem resolve_upTwo (cwd : Path) (s : Str) :
    resolve cwd ("..\\..\\".toList ++ s) = walk cwd.dropLast.dropLast (segs s) := by
  have hsegs : segs ("..\\..\\".toList ++ s) = .up :: .up :: segs s := by
    show segs ("..".toList ++ '\\' :: ("..".toList ++ '\\' :: s)) = _
    rw [segs_append_sep _ _ (by decide), segs_append_sep _ _ (by decide)]
    rfl
  rw [resolve_of_not_rooted cwd (show rooted ("..\\..\\".toList ++ s) = false from rfl), hsegs]
  rfl

theorem resolve_up (cwd : Path) : resolve cwd ("..".toList) = cwd.dropLast := rfl

theorem resolve_up_up (cwd : Path) : resolve cwd ("..\\..".toList) = cwd.dropLast.dropLast := rfl

/-- A disk: the files of every existing folder. -/
structure Disk (F : Type*) where
  folder : Path → Option (AList fun _ : Str => F)
  closed : ∀ p n, (folder (p ++ [n])).isSome → (folder p).isSome
  apart : ∀ p n f, (folder (p ++ [n])).isSome → folder p = some f → n ∉ f

namespace Disk

variable {F : Type*}

/-- `p` is an existing folder. -/
def isDir (d : Disk F) (p : Path) : Bool := (d.folder p).isSome

/-- The file called `n` in the folder `p`. -/
def file (d : Disk F) (p : Path) (n : Str) : Option F := (d.folder p).bind fun f => f.lookup n

/-- The file at a path. -/
def fileAt (d : Disk F) (p : Path) : Option F := p.getLast?.bind fun n => d.file p.dropLast n

/-- `if exist` without a trailing separator: a folder or a file. -/
def existsAt (d : Disk F) (p : Path) : Bool := d.isDir p || (d.fileAt p).isSome

/-- A file stands at `p` or where a folder above `p` would be. -/
def blocked (d : Disk F) (p : Path) : Bool := p.inits.any fun q => (d.fileAt q).isSome

theorem fileAt_concat (d : Disk F) (p : Path) (n : Str) : d.fileAt (p ++ [n]) = d.file p n := by
  simp [fileAt]

theorem existsAt_concat (d : Disk F) (p : Path) (n : Str) :
    d.existsAt (p ++ [n]) = (d.isDir (p ++ [n]) || (d.file p n).isSome) := by
  rw [existsAt, fileAt_concat]

theorem blocked_eq_false_iff (d : Disk F) (p : Path) :
    d.blocked p = false ↔ ∀ q, q <+: p → d.fileAt q = none := by
  simp [blocked, List.mem_inits]

/-- The new folders of a `mkdir` that no file is in the way of. -/
def makeFolders (d : Disk F) (p : Path) (h : d.blocked p = false) : Disk F where
  folder q := if q <+: p then some ((d.folder q).getD ∅) else d.folder q
  closed q n hn := by
    by_cases hq : q <+: p
    · rw [if_pos hq]; rfl
    · have hqn : ¬ q ++ [n] <+: p := fun hp => hq ((List.prefix_append q [n]).trans hp)
      rw [if_neg hqn] at hn
      rw [if_neg hq]
      exact d.closed q n hn
  apart q n f hn hf := by
    by_cases hqn : q ++ [n] <+: p
    · have hfree := (d.blocked_eq_false_iff p).mp h _ hqn
      rw [fileAt_concat, file] at hfree
      rw [if_pos ((List.prefix_append q [n]).trans hqn), Option.some.injEq] at hf
      subst hf
      cases hfolder : d.folder q with
      | none => exact AList.notMem_empty n
      | some f =>
        rw [hfolder, Option.bind_some, AList.lookup_eq_none] at hfree
        exact hfree
    · rw [if_neg hqn] at hn
      obtain ⟨g, hg⟩ := Option.isSome_iff_exists.mp (d.closed q n hn)
      have hgn := d.apart q n g hn hg
      split at hf
      · rw [hg, Option.getD_some, Option.some.injEq] at hf
        exact hf ▸ hgn
      · exact (Option.some.inj (hg.symm.trans hf)) ▸ hgn

/-- `mkdir`, which also creates the missing folders above. -/
def mkdir (d : Disk F) (p : Path) : Disk F :=
  if h : d.blocked p = false then d.makeFolders p h else d

/-- `rd /s /q` from the folder `cwd`: everything at or under the folder `p` goes, but the current
folder and the folders above it cannot be removed and stay behind empty. -/
def rd (d : Disk F) (cwd p : Path) : Disk F where
  folder q :=
    if p <+: q then (if q <+: cwd then (d.folder q).map fun _ => ∅ else none) else d.folder q
  closed q n h := by
    by_cases hqn : p <+: q ++ [n]
    · rw [if_pos hqn] at h
      by_cases hc : q ++ [n] <+: cwd
      · rw [if_pos hc, Option.isSome_map] at h
        have hd := d.closed q n h
        have hq : q <+: cwd := (List.prefix_append q [n]).trans hc
        by_cases hp : p <+: q
        · rw [if_pos hp, if_pos hq, Option.isSome_map]; exact hd
        · rw [if_neg hp]; exact hd
      · rw [if_neg hc] at h
        simp at h
    · have hp : ¬ p <+: q := fun hp => hqn (hp.trans (List.prefix_append q [n]))
      rw [if_neg hqn] at h
      rw [if_neg hp]
      exact d.closed q n h
  apart q n f h hf := by
    have hold : (d.folder (q ++ [n])).isSome := by
      split at h
      · split at h
        · rwa [Option.isSome_map] at h
        · simp at h
      · exact h
    by_cases hp : p <+: q
    · rw [if_pos hp] at hf
      split at hf
      · obtain ⟨g, _, rfl⟩ := Option.map_eq_some_iff.mp hf
        exact AList.notMem_empty n
      · simp at hf
    · rw [if_neg hp] at hf
      exact d.apart q n f hold hf

/-- Write files into one folder, in order; a name that is a folder cannot be written. -/
def put (d : Disk F) (p : Path) (ws : List (Str × F)) : Disk F where
  folder q :=
    if q = p then (d.folder q).map fun f => writeAll f (ws.filter fun w => !d.isDir (p ++ [w.1]))
    else d.folder q
  closed q n h := by
    have h' : (d.folder (q ++ [n])).isSome := by
      split at h
      · rwa [Option.isSome_map] at h
      · exact h
    have hd := d.closed q n h'
    split
    · rwa [Option.isSome_map]
    · exact hd
  apart q n f h hf := by
    have h' : (d.folder (q ++ [n])).isSome := by
      split at h
      · rwa [Option.isSome_map] at h
      · exact h
    split at hf
    · rename_i hq
      obtain ⟨g, hg, rfl⟩ := Option.map_eq_some_iff.mp hf
      rw [mem_writeAll]
      rintro (hn | ⟨x, hx⟩)
      · exact d.apart q n g h' hg hn
      · have hdir : d.isDir (p ++ [n]) = true := by rw [← hq]; exact h'
        simp [hdir] at hx
    · exact d.apart q n f h' hf

/-- Write one file at a path; without its folder nothing happens. -/
def write (d : Disk F) (p : Path) (x : F) : Disk F :=
  match p.getLast? with
  | none => d
  | some n => d.put p.dropLast [(n, x)]

/-- A drive with nothing on it. -/
def root (F : Type*) : Disk F where
  folder q := if q = [] then some ∅ else none
  closed q n h := by simp at h
  apart q n f h := by simp at h

/-! ### What each operation does to a folder -/

theorem folder_mkdir {d : Disk F} {p : Path} (h : d.blocked p = false) (q : Path) :
    (d.mkdir p).folder q = if q <+: p then some ((d.folder q).getD ∅) else d.folder q := by
  rw [mkdir, dif_pos h]; rfl

theorem mkdir_of_blocked {d : Disk F} {p : Path} (h : d.blocked p = true) : d.mkdir p = d := by
  rw [mkdir, dif_neg (by rw [h]; exact Bool.noConfusion)]

theorem folder_rd (d : Disk F) (cwd p q : Path) :
    (d.rd cwd p).folder q =
      if p <+: q then (if q <+: cwd then (d.folder q).map fun _ => ∅ else none)
      else d.folder q := rfl

theorem folder_put (d : Disk F) (p q : Path) (ws : List (Str × F)) :
    (d.put p ws).folder q =
      if q = p then
        (d.folder q).map fun f => writeAll f (ws.filter fun w => !d.isDir (p ++ [w.1]))
      else d.folder q := rfl

theorem folder_put_ne (d : Disk F) {p q : Path} (ws : List (Str × F)) (h : q ≠ p) :
    (d.put p ws).folder q = d.folder q := if_neg h

theorem ext_folder {d d' : Disk F} (h : ∀ q, d.folder q = d'.folder q) : d = d' := by
  cases d
  cases d'
  simp only [mk.injEq]
  funext q
  exact h q

theorem put_nil (d : Disk F) (p : Path) : d.put p [] = d := by
  apply ext_folder
  intro q
  rw [folder_put]
  split
  · show (d.folder q).map (fun f => f) = d.folder q
    rw [Option.map_id']
  · rfl

/-- Writing into a folder none of whose folders has one of the names. -/
theorem folder_put_self {d : Disk F} {p : Path} {f : AList fun _ : Str => F}
    {ws : List (Str × F)} (hf : d.folder p = some f)
    (h : ∀ w ∈ ws, d.isDir (p ++ [w.1]) = false) :
    (d.put p ws).folder p = some (writeAll f ws) := by
  have hall : ws.filter (fun w => !d.isDir (p ++ [w.1])) = ws := by
    rw [List.filter_eq_self]
    intro w hw
    rw [h w hw]; rfl
  rw [folder_put, if_pos rfl, hf, hall]; rfl

theorem write_concat (d : Disk F) (p : Path) (n : Str) (x : F) :
    d.write (p ++ [n]) x = d.put p [(n, x)] := by
  simp [write]

/-- The folders above an existing folder exist. -/
theorem isDir_above {d : Disk F} {p q : Path} (hpq : p <+: q) (hq : d.isDir q = true) :
    d.isDir p = true := by
  obtain ⟨t, rfl⟩ := hpq
  induction t using List.reverseRecOn with
  | nil => simpa using hq
  | append_singleton t n ih =>
    rw [← List.append_assoc] at hq
    exact ih (d.closed _ _ hq)

/-- Where a folder is there is no file. -/
theorem fileAt_of_isDir {d : Disk F} {p : Path} (h : d.isDir p = true) : d.fileAt p = none := by
  induction p using List.reverseRecOn with
  | nil => rfl
  | append_singleton p n _ =>
    obtain ⟨f, hf⟩ := Option.isSome_iff_exists.mp (d.closed p n h)
    rw [fileAt_concat, file, hf, Option.bind_some, AList.lookup_eq_none]
    exact d.apart p n f h hf

/-- No file is in the way of an existing folder. -/
theorem blocked_of_isDir {d : Disk F} {p : Path} (h : d.isDir p = true) : d.blocked p = false := by
  rw [blocked_eq_false_iff]
  exact fun q hq => fileAt_of_isDir (isDir_above hq h)

/-- Only the last name can be in the way of a folder in an existing one. -/
theorem blocked_concat {d : Disk F} {p : Path} (n : Str) (h : d.isDir p = true) :
    d.blocked (p ++ [n]) = (d.file p n).isSome := by
  have habove := (d.blocked_eq_false_iff p).mp (blocked_of_isDir h)
  rw [Bool.eq_iff_iff, ← fileAt_concat]
  constructor
  · intro hb
    by_contra hn
    rw [Option.not_isSome_iff_eq_none] at hn
    have hfree : d.blocked (p ++ [n]) = false := by
      rw [blocked_eq_false_iff]
      intro q hq
      rcases List.prefix_concat_iff.mp hq with rfl | hq
      · exact hn
      · exact habove q hq
    rw [hfree] at hb
    exact Bool.noConfusion hb
  · intro hn
    by_contra hb
    have hfree := (d.blocked_eq_false_iff _).mp (by simpa using hb) _ List.prefix_rfl
    rw [hfree] at hn
    exact Bool.noConfusion hn

/-- `mkdir` leaves the folders that existed as they were. -/
theorem folder_mkdir_of_isDir {d : Disk F} {p q : Path} (hq : d.isDir q = true) :
    (d.mkdir p).folder q = d.folder q := by
  by_cases hp : d.blocked p = false
  · rw [folder_mkdir hp]
    split
    · obtain ⟨f, hf⟩ := Option.isSome_iff_exists.mp hq
      rw [hf]; rfl
    · rfl
  · rw [mkdir_of_blocked (by simpa using hp)]

theorem isDir_mkdir {d : Disk F} {p : Path} (h : d.blocked p = false) (q : Path) :
    (d.mkdir p).isDir q = (decide (q <+: p) || d.isDir q) := by
  rw [isDir, folder_mkdir h]
  by_cases hq : q <+: p <;> simp [hq, isDir]

theorem isDir_mkdir_of_isDir {d : Disk F} (p : Path) {q : Path} (h : d.isDir q = true) :
    (d.mkdir p).isDir q = true := by
  rw [isDir, folder_mkdir_of_isDir h]; exact h

theorem isDir_put (d : Disk F) (p q : Path) (ws : List (Str × F)) :
    (d.put p ws).isDir q = d.isDir q := by
  rw [isDir, folder_put]
  split
  · rw [Option.isSome_map]; rfl
  · rfl

theorem isDir_write (d : Disk F) (p q : Path) (x : F) : (d.write p x).isDir q = d.isDir q := by
  rw [write]
  split
  · rfl
  · exact isDir_put d _ q _

/-- New folders are empty, so `mkdir` changes no file. -/
theorem file_mkdir (d : Disk F) (p q : Path) (n : Str) : (d.mkdir p).file q n = d.file q n := by
  by_cases hp : d.blocked p = false
  · rw [file, folder_mkdir hp, file]
    split
    · cases d.folder q with
      | none => exact AList.lookup_empty n
      | some f => rfl
    · rfl
  · rw [mkdir_of_blocked (by simpa using hp)]

/-- Making a folder that exists already changes nothing. -/
theorem mkdir_of_isDir {d : Disk F} {p : Path} (hp : d.isDir p = true) : d.mkdir p = d := by
  apply ext_folder
  intro q
  by_cases hq : q <+: p
  · exact folder_mkdir_of_isDir (isDir_above hq hp)
  · rw [folder_mkdir (blocked_of_isDir hp), if_neg hq]

/-! ### Renewing a folder -/

/-- `if exist NAME\ rd /s /q NAME`, then `mkdir NAME`. -/
def renew (d : Disk F) (cwd p : Path) : Disk F := (if d.isDir p then d.rd cwd p else d).mkdir p

/-- Removing a folder clears no file out of the way of it. -/
theorem fileAt_rd (d : Disk F) (cwd : Path) {p q : Path} (hq : q <+: p) :
    (d.rd cwd p).fileAt q = d.fileAt q := by
  rcases List.eq_nil_or_concat q with rfl | ⟨q', n, rfl⟩
  · rfl
  · have hnot : ¬ p <+: q' := by
      intro hp
      have hlen := (hq.trans hp).length_le
      rw [List.length_concat] at hlen
      omega
    rw [List.concat_eq_append, fileAt_concat, fileAt_concat, file, file, folder_rd, if_neg hnot]

/-- Under a folder that does not exist there is nothing. -/
theorem folder_eq_none {d : Disk F} {p q : Path} (hpq : p <+: q) (hp : d.isDir p = false) :
    d.folder q = none := by
  cases hq : d.folder q with
  | none => rfl
  | some f =>
    have hdir := isDir_above hpq (show d.isDir q = true by rw [isDir, hq]; rfl)
    rw [hp] at hdir
    exact Bool.noConfusion hdir

/-- **A renewed folder** is empty, nothing is left under it, and away from it and the folders above
it nothing has changed. -/
theorem folder_renew {d : Disk F} {cwd p : Path} (h : d.blocked p = false) (hc : ¬ p <+: cwd)
    (q : Path) :
    (d.renew cwd p).folder q =
      if q = p then some ∅
      else if p <+: q then none
      else if q <+: p then some ((d.folder q).getD ∅)
      else d.folder q := by
  set d' := if d.isDir p then d.rd cwd p else d with hd'
  have hfree : d'.blocked p = false := by
    rw [blocked_eq_false_iff]
    intro q hq
    have hold := (d.blocked_eq_false_iff p).mp h q hq
    rw [hd']
    split
    · rw [fileAt_rd d cwd hq, hold]
    · exact hold
  have hfolder : d'.folder q = if p <+: q then none else d.folder q := by
    rw [hd']
    by_cases hp : d.isDir p = true
    · rw [if_pos hp, folder_rd]
      by_cases hpq : p <+: q
      · rw [if_pos hpq, if_pos hpq, if_neg fun hq => hc (hpq.trans hq)]
      · rw [if_neg hpq, if_neg hpq]
    · rw [if_neg hp]
      split
      · rename_i hpq
        exact folder_eq_none hpq (by simpa using hp)
      · rfl
  rw [renew, ← hd', folder_mkdir hfree, hfolder]
  by_cases hqp : q = p
  · subst hqp
    rw [if_pos List.prefix_rfl, if_pos List.prefix_rfl, if_pos rfl]; rfl
  · rw [if_neg hqp]
    by_cases hpq : p <+: q
    · have hnot : ¬ q <+: p := fun hq => hqp (hq.eq_of_length_le hpq.length_le)
      rw [if_pos hpq, if_pos hpq, if_neg hnot]
    · rw [if_neg hpq, if_neg hpq]

theorem isDir_renew {d : Disk F} {cwd p : Path} (h : d.blocked p = false) (hc : ¬ p <+: cwd) :
    (d.renew cwd p).isDir p = true := by
  rw [isDir, folder_renew h hc, if_pos rfl]; rfl

end Disk

end Atools.Batch
