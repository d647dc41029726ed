import Atools.Invocation

/-!
# What `alibs.cmd` does with the names it is given

`StopsCleanly` is what the script is for: the names are built up to the first one that is no
library, nothing else on the disk is touched, and the script ends where it was started.

Since a name counts as valid when a folder of that name lies next to the scripts, this is what
happens exactly when the libraries asked for have their folders, are at most six, and the name they
end at is no folder (`alibs_stops_cleanly_iff`).  The repository has folders that are no libraries:
asked for one of them, the script builds it like a library (`alibs_builds_folder`).
-/

namespace Atools

open Batch

/-- The libraries asked for: the names up to the first one that is no library. -/
def asked (names : List Str) : List Str := names.takeWhile fun i => (Lib.ofName i).isSome

/-- A run that builds the libraries asked for and leaves everything else alone. -/
structure StopsCleanly (env : Env) (o : Str) (names : List Str) (sh sh' : Shell) : Prop where
  builds : ∃ es, sh'.log = sh.log ++ es ∧ built es = asked names
  replaced : ∀ l ∈ libsOf (asked names), ∃ t ≥ sh.clock,
    sh'.disk.folder (sh.cwd ++ [o, libsName] ++ [l.name]) =
      some (objectFolder (objects (l.flags env) (l.sources env) t))
  emptied : ∀ l ∈ libsOf (asked names), ∀ q, sh.cwd ++ [o, libsName] ++ [l.name] <+: q →
    q ≠ sh.cwd ++ [o, libsName] ++ [l.name] → sh'.disk.folder q = none
  folders : ∀ q, (∀ l ∈ libsOf (asked names), ¬ sh.cwd ++ [o, libsName] ++ [l.name] <+: q) →
    sh'.disk.isDir q = (decide (q <+: sh.cwd ++ [o, libsName]) || sh.disk.isDir q)
  files : ∀ q n, (∀ l ∈ libsOf (asked names), ¬ sh.cwd ++ [o, libsName] ++ [l.name] <+: q) →
    (q ≠ sh.cwd ++ [o] ∨ n ≠ depsName) → sh'.disk.file q n = sh.disk.file q n
  untouched : asked names = [] →
    sh'.disk.file (sh.cwd ++ [o]) depsName = sh.disk.file (sh.cwd ++ [o]) depsName
  archive : asked names ≠ [] → ∃ a, sh'.disk.file (sh.cwd ++ [o]) depsName = some (.archive a)
  holds : ∀ n, (members sh'.disk (sh.cwd ++ [o] ++ [depsName])).lookup n =
    (lastWrite n (libWrites env sh.clock (libsOf (asked names)))).or
      ((members sh.disk (sh.cwd ++ [o] ++ [depsName])).lookup n)
  back : sh'.cwd = sh.cwd

/-- What a run needs to stop cleanly: not more than six libraries, no file in the way of the folders
it makes, the folders of the libraries, and no folder of the name it stops at. -/
structure TargetsFit (d : Disk File) (r : Path) (o : Str) (names : List Str) : Prop where
  few : (asked names).length ≤ 6
  libs : d.blocked (r ++ [o, libsName]) = false
  free : ∀ l ∈ libsOf (asked names), d.file (r ++ [o, libsName]) l.name = none
  present : ∀ l ∈ libsOf (asked names), d.isDir (r ++ [l.name]) = true
  stop : ∀ n, names[(asked names).length]? = some n → (asked names).length < 6 →
    presentThen d (r ++ [o, libsName]) (libsOf (asked names)) (walk r (segs n)) = false

/-- A start of `alibs.cmd` with names: a proper invocation in an existing folder, with complete
settings the script can work with, whose out folder is one folder next to the scripts, and an archive
that can be written. -/
structure Started (cmd : Interpreter) (sh : Shell) (c : Option Token) (names : List Token)
    (o : Str) : Prop where
  invoked : Invoked sh c names
  named : names ≠ []
  folder : sh.disk.isDir sh.cwd = true
  settings : complete (alibsSettings cmd (argList c names) sh).env
  usable : Usable (alibsSettings cmd (argList c names) sh).env
  out : OutNamed (alibsSettings cmd (argList c names) sh).env o
  archive : archivable sh.disk (sh.cwd ++ [o, depsName]) = true

/-! ### The names asked for -/

theorem asked_isSome {names : List Str} : ∀ i ∈ asked names, (Lib.ofName i).isSome := by
  intro i hi
  exact List.mem_takeWhile_imp (p := fun i => (Lib.ofName i).isSome) hi

/-- Names of libraries, up to a name that is none or to the end, are the ones asked for. -/
theorem asked_append {is rest : List Str} (his : ∀ i ∈ is, (Lib.ofName i).isSome)
    (hrest : ∀ j ∈ rest.head?, Lib.ofName j = none) : asked (is ++ rest) = is := by
  rw [asked, List.takeWhile_append_of_pos his]
  cases rest with
  | nil => simp
  | cons j js =>
    have hj := hrest j rfl
    simp [hj]

/-- The name the libraries asked for end at. -/
theorem getElem?_length_asked (names : List Str) :
    names[(asked names).length]? = (names.dropWhile fun i => (Lib.ofName i).isSome).head? := by
  have hall : ∀ m : ℕ, names[m]? =
      (asked names ++ names.dropWhile fun i => (Lib.ofName i).isSome)[m]? := by
    intro m
    rw [asked, List.takeWhile_append_dropWhile]
  rw [hall, List.getElem?_append_right le_rfl, Nat.sub_self, ← List.head?_eq_getElem?]

/-- The first six names when at most six libraries are asked for. -/
theorem take_six {names : List Str} (h : (asked names).length ≤ 6) :
    names.take 6 = asked names ++
      (names.dropWhile fun i => (Lib.ofName i).isSome).take (6 - (asked names).length) := by
  have hall : asked names ++ names.dropWhile (fun i => (Lib.ofName i).isSome) = names :=
    List.takeWhile_append_dropWhile
  calc names.take 6
      = (asked names ++ names.dropWhile fun i => (Lib.ofName i).isSome).take 6 := by rw [hall]
    _ = _ := by rw [List.take_append, List.take_of_length_le h]

/-! ### The state after a run over libraries -/

section Run

variable {cmd : Interpreter} {sh' : Shell} {o : Str} {is : List Str}

/-- **A run over libraries stops cleanly**, whatever is reported at its end. -/
theorem LibrariesBuilt.stopsCleanly (sh inner : Shell) {names : List Str} {es : List Event}
    (es' : List Event)
    (hasked : asked names = is) (hout : OutNamed inner.env o)
    (hfree : inner.disk.blocked (inner.cwd ++ [o, libsName]) = false)
    (hdisk : inner.disk = sh.disk) (hcwd : inner.cwd = sh.cwd) (hclock : inner.clock = sh.clock)
    (hlog : inner.log = sh.log ++ es) (hes : built es = []) (hes' : built es' = [])
    (h : LibrariesBuilt (enterLibs inner) sh' (inner.cwd ++ [o]) is) :
    StopsCleanly inner.env o names sh
      { sh' with env := sh.env, cwd := sh.cwd, log := sh'.log ++ es' } := by
  have henter := enterLibs_eq hout hfree
  have hpath : (enterLibs inner).cwd = sh.cwd ++ [o, libsName] := by rw [henter, ← hcwd]
  have hfile : ∀ q n, (enterLibs inner).disk.file q n = sh.disk.file q n := by
    intro q n
    rw [henter, ← hdisk]
    exact Disk.file_mkdir _ _ q n
  have henv : (enterLibs inner).env = inner.env := enterLibs_env inner
  have hclock' : (enterLibs inner).clock = sh.clock := by rw [henter, ← hclock]
  have hisDir := h.isDir_eq inner hout hfree
  subst hasked
  rw [hcwd] at h
  refine ⟨?_, ?_, ?_, ?_, ?_, ?_, ?_, ?_, rfl⟩
  · obtain ⟨es₁, heq, hbuilt, _⟩ := h.log
    refine ⟨es ++ (es₁ ++ es'), ?_, ?_⟩
    · show sh'.log ++ es' = _
      rw [heq, henter]
      show inner.log ++ es₁ ++ es' = _
      rw [hlog, List.append_assoc, List.append_assoc]
    · rw [built, List.filterMap_append, List.filterMap_append, ← built, ← built, ← built, hes,
        hbuilt, hes', List.nil_append, List.append_nil]
  · intro l hl
    obtain ⟨t, ht, hfresh⟩ := h.fresh l hl
    rw [hclock'] at ht
    rw [hpath, henv] at hfresh
    exact ⟨t, ht, hfresh⟩
  · intro l hl q hq hne
    exact h.under l hl q (by rw [hpath]; exact hq) (by rw [hpath]; exact hne)
  · intro q hq
    show sh'.disk.isDir q = _
    have hany : (libsOf (asked names)).any
        (fun l => decide (inner.cwd ++ [o, libsName] ++ [l.name] <+: q)) = false := by
      rw [List.any_eq_false]
      intro l hl hlq
      rw [hcwd] at hlq
      exact hq l hl (of_decide_eq_true hlq)
    rw [hisDir q, presentThen, hany, if_neg Bool.false_ne_true, hcwd, hdisk]
  · intro q n hq hn
    show sh'.disk.file q n = _
    rw [← hfile]
    by_cases hqo : q = sh.cwd ++ [o]
    · rw [hqo]
      exact h.files n (hn.resolve_left fun hne => hne hqo)
    · rw [Disk.file, h.frame q hqo]
      · rfl
      · intro l hl hlq
        rw [hpath] at hlq
        exact hq l hl hlq
  · intro hnil
    show sh'.disk.file _ _ = _
    rw [h.idle hnil, hfile]
  · exact h.archive
  · intro n
    rw [← hclock', ← henv]
    have hold : members (enterLibs inner).disk (sh.cwd ++ [o] ++ [depsName]) =
        members sh.disk (sh.cwd ++ [o] ++ [depsName]) := by
      rw [members, members, Disk.fileAt_concat, Disk.fileAt_concat, hfile]
    rw [← hold]
    exact h.holds n

end Run

/-! ### A run of the script -/

section Script

variable {cmd : Interpreter} {sh : Shell} {c : Option Token} {names : List Token} {o : Str}

/-- The script up to the end of the libraries at the front of its names. -/
theorem Started.run (h : Started cmd sh c names o) {is rest : List Str}
    (hsplit : (names.map Token.text).take 6 = is ++ rest)
    (his : ∀ i ∈ is, (Lib.ofName i).isSome) (hfit : LibsFit sh.disk sh.cwd o (libsOf is)) :
    ∃ (es : List Event) (sh' : Shell), built es = [] ∧
      LibrariesBuilt
        (enterLibs { sh with env := alibsEnv cmd (argList c names) sh, log := sh.log ++ es })
        sh' (sh.cwd ++ [o]) is ∧
      alibs cmd (argList c names) sh =
        leave cmd sh ((buildLibraries cmd rest sh').cd "..\\..".toList) := by
  obtain ⟨es, hshift, hes, _⟩ := alibs_invoked cmd h.invoked
  set inner : Shell :=
    { sh with env := alibsEnv cmd (argList c names) sh, log := sh.log ++ es } with hinner
  have hready : Ready (enterLibs inner) (inner.cwd ++ [o]) (libsOf is) :=
    LibsFit.ready (show LibsFit inner.disk inner.cwd o (libsOf is) from hfit) (alibsEnv_out h.out)
  obtain ⟨sh', hrun, hbuilt⟩ := buildLibraries_spec cmd (inner.cwd ++ [o]) is rest _ his hready
  refine ⟨es, sh', hes, hbuilt, ?_⟩
  have hnamed : names.map Token.text ≠ [] := by
    rw [ne_eq, List.map_eq_nil_iff]
    exact h.named
  rw [alibs_eq cmd _ sh h.settings.1 h.settings.2, hshift, buildTargets]
  show leave cmd sh ((buildLibraries cmd (targetLibs _ (names.map Token.text))
    (enterLibs inner)).cd "..\\..".toList) = _
  rw [targetLibs, if_neg hnamed, hsplit, hrun]

/-- `if exist ..\..\NAME\` in `libs` of the out folder. -/
theorem isDir_upTwo {sh' : Shell} {r : Path} (hcwd : sh'.cwd = r ++ [o, libsName]) (n : Str) :
    sh'.isDir ("..\\..\\".toList ++ (n ++ ['\\'])) = sh'.disk.isDir (walk r (segs n)) := by
  rw [Shell.isDir, resolve_upTwo, segs_snoc_sep n (by decide), hcwd,
    show r ++ [o, libsName] = (r ++ [o]) ++ [libsName] by simp, List.dropLast_concat,
    List.dropLast_concat]

theorem TargetsFit.libsFit {d : Disk File} {r : Path} {names : List Str}
    (h : TargetsFit d r o names) (harch : archivable d (r ++ [o, depsName]) = true) :
    LibsFit d r o (libsOf (asked names)) :=
  ⟨h.libs, h.free, harch, h.present⟩

/-- **Enough for a clean stop.** -/
theorem stopsCleanly_of_fit (h : Started cmd sh c names o)
    (hfit : TargetsFit sh.disk sh.cwd o (names.map Token.text)) :
    StopsCleanly (alibsEnv cmd (argList c names) sh) o (names.map Token.text) sh
      (alibs cmd (argList c names) sh) := by
  set ns := names.map Token.text with hns
  set rest := (ns.dropWhile fun i => (Lib.ofName i).isSome).take (6 - (asked ns).length) with hrest
  have hsplit : ns.take 6 = asked ns ++ rest := take_six hfit.few
  obtain ⟨es, sh', hes, hbuilt, hrun⟩ := h.run hsplit asked_isSome (hfit.libsFit h.archive)
  set inner : Shell :=
    { sh with env := alibsEnv cmd (argList c names) sh, log := sh.log ++ es } with hinner
  have hout : OutNamed inner.env o := alibsEnv_out h.out
  have hcwd : sh'.cwd = sh.cwd ++ [o, libsName] := by
    rw [hbuilt.cwd, enterLibs_eq hout hfit.libs]
  have hisDir := hbuilt.isDir_eq inner hout hfit.libs
  have hhome : sh'.disk.isDir sh.cwd = true := by
    rw [hisDir, presentThen, if_neg]
    · show (decide _ || sh.disk.isDir sh.cwd) = true
      rw [h.folder, Bool.or_true]
    · rw [Bool.not_eq_true, List.any_eq_false]
      intro l _ hl
      have hlen := (of_decide_eq_true hl).length_le
      simp only [List.length_append, List.length_cons, List.length_nil, hinner] at hlen
      omega
  have hclean := fun es' hes' => hbuilt.stopsCleanly sh inner es' rfl hout
    hfit.libs rfl rfl rfl rfl hes hes'
  rw [hrun]
  cases hr : rest with
  | nil =>
    rw [buildLibraries, leave_libs cmd sh sh' hcwd hhome]
    have hnil := hclean [] rfl
    rw [List.append_nil] at hnil
    exact hnil
  | cons n rs =>
    have hlt : (asked ns).length < 6 := by
      by_contra hge
      rw [hrest, show 6 - (asked ns).length = 0 by omega, List.take_zero] at hr
      exact absurd hr (by simp)
    have hget : ns[(asked ns).length]? = some n := by
      have htake : rest.head? = some n := by rw [hr]; rfl
      rw [hrest, List.head?_take, if_neg (by omega)] at htake
      rw [getElem?_length_asked, htake]
    have hstop : sh'.isDir ("..\\..\\".toList ++ (n ++ ['\\'])) = false := by
      rw [isDir_upTwo hcwd, hisDir]
      exact hfit.stop n hget hlt
    rw [buildLibraries_of_absent cmd rs hstop,
      leave_libs cmd sh (sh'.say (.invalidName n)) hcwd hhome]
    exact hclean [.invalidName n] rfl

/-! ### What a clean stop needs -/

/-- After a clean stop `libs` is a folder, so no file was in the way of it. -/
theorem StopsCleanly.libs_free {env : Env} {ns : List Str} {sh sh' : Shell}
    (h : StopsCleanly env o ns sh sh') : sh.disk.blocked (sh.cwd ++ [o, libsName]) = false := by
  have hlong : ∀ q, q <+: sh.cwd ++ [o, libsName] →
      ∀ l ∈ libsOf (asked ns), ¬ sh.cwd ++ [o, libsName] ++ [l.name] <+: q := by
    intro q hq l _ hl
    exact not_concat_prefix_self _ _ (hl.trans hq)
  rw [Disk.blocked_eq_false_iff]
  intro q hq
  rcases List.eq_nil_or_concat q with rfl | ⟨q', n, rfl⟩
  · rfl
  · rw [List.concat_eq_append] at hq ⊢
    have hdir : sh'.disk.isDir (q' ++ [n]) = true := by
      rw [h.folders _ (hlong _ hq), decide_eq_true hq]; rfl
    have hfile := h.files q' n (hlong q' ((List.prefix_append q' [n]).trans hq)) (by
      by_contra hcon
      rw [not_or, not_not, not_not] at hcon
      obtain ⟨rfl, rfl⟩ := hcon
      rw [show sh.cwd ++ [o, libsName] = (sh.cwd ++ [o]) ++ [libsName] by simp] at hq
      have heq := hq.eq_of_length (by simp)
      have hname := List.singleton_inj.mp (List.append_cancel_left heq)
      exact absurd hname (by decide))
    rw [Disk.fileAt_concat, ← hfile, ← Disk.fileAt_concat]
    exact Disk.fileAt_of_isDir hdir

/-- After a clean stop the libraries have their folders, so no file was in the way of them. -/
theorem StopsCleanly.lib_free {env : Env} {ns : List Str} {sh sh' : Shell}
    (h : StopsCleanly env o ns sh sh') {l : Lib} (hl : l ∈ libsOf (asked ns)) :
    sh.disk.file (sh.cwd ++ [o, libsName]) l.name = none := by
  obtain ⟨t, _, hfresh⟩ := h.replaced l hl
  have hdir : sh'.disk.isDir (sh.cwd ++ [o, libsName] ++ [l.name]) = true := by
    rw [Disk.isDir, hfresh]; rfl
  have hfile := h.files (sh.cwd ++ [o, libsName]) l.name
    (fun l' _ => not_concat_prefix_self _ _) (Or.inl (by simp))
  rw [← hfile, ← Disk.fileAt_concat]
  exact Disk.fileAt_of_isDir hdir

theorem Started.out_ne_name (h : Started cmd sh c names o) (l : Lib) : o ≠ l.name :=
  ne_of_outFolderName (outFolderName_of_alibs h.settings h.out) l

/-- A folder next to the scripts that is not the out folder is there after a run if it was before. -/
theorem presentThen_name {d : Disk File} {r : Path} {ls : List Lib} {n : Str} (hn : o ≠ n) :
    presentThen d (r ++ [o, libsName]) ls (r ++ [n]) = d.isDir (r ++ [n]) := by
  have hany : ls.any (fun l => decide (r ++ [o, libsName] ++ [l.name] <+: r ++ [n])) = false := by
    rw [List.any_eq_false]
    intro l _ hl
    have hlen := (of_decide_eq_true hl).length_le
    simp only [List.length_append, List.length_cons, List.length_nil] at hlen
    omega
  have hnot : ¬ r ++ [n] <+: r ++ [o, libsName] := by
    rw [List.prefix_append_right_inj]
    intro h
    obtain ⟨t, ht⟩ := h
    exact hn (List.cons.inj ht).1.symm
  rw [presentThen, hany, if_neg Bool.false_ne_true, decide_eq_false hnot, Bool.false_or]

/-- A name that is a library with its folder in the repository. -/
def known (d : Disk File) (r : Path) (i : Str) : Bool :=
  (Lib.ofName i).any fun l => d.isDir (r ++ [l.name])

/-- **A clean stop needs that much.** -/
theorem fit_of_stopsCleanly (h : Started cmd sh c names o)
    (hs : StopsCleanly (alibsEnv cmd (argList c names) sh) o (names.map Token.text) sh
      (alibs cmd (argList c names) sh)) :
    TargetsFit sh.disk sh.cwd o (names.map Token.text) := by
  set ns := names.map Token.text with hns
  set is := (ns.take 6).takeWhile (known sh.disk sh.cwd) with his
  set rest := (ns.take 6).dropWhile (known sh.disk sh.cwd) with hrest
  have hsplit : ns.take 6 = is ++ rest := List.takeWhile_append_dropWhile.symm
  have hall : ns = is ++ (rest ++ ns.drop 6) := by
    rw [← List.append_assoc, ← hsplit, List.take_append_drop]
  have hknown : ∀ i ∈ is, known sh.disk sh.cwd i = true := fun i hi =>
    List.mem_takeWhile_imp (p := known sh.disk sh.cwd) hi
  have hsome : ∀ i ∈ is, (Lib.ofName i).isSome := by
    intro i hi
    obtain ⟨l, hl, _⟩ := (Option.any_eq_true _ _).mp (hknown i hi)
    rw [hl]; rfl
  have hasked : asked ns = is ++ asked (rest ++ ns.drop 6) := by
    rw [asked]
    conv_lhs => rw [hall]
    rw [List.takeWhile_append_of_pos hsome, asked]
  have hpresent : ∀ l ∈ libsOf is, sh.disk.isDir (sh.cwd ++ [l.name]) = true := by
    intro l hl
    obtain ⟨i, hi, hil⟩ := List.mem_filterMap.mp hl
    obtain ⟨l', hl', hdir⟩ := (Option.any_eq_true _ _).mp (hknown i hi)
    rw [hil, Option.some.injEq] at hl'
    rw [hl']
    exact hdir
  have hsub : ∀ l ∈ libsOf is, l ∈ libsOf (asked ns) := by
    intro l hl
    rw [hasked, libsOf, List.filterMap_append]
    exact List.mem_append_left _ hl
  have hfit : LibsFit sh.disk sh.cwd o (libsOf is) :=
    ⟨hs.libs_free, fun l hl => hs.lib_free (hsub l hl), h.archive, hpresent⟩
  obtain ⟨es, sh', hes, hbuilt, hrun⟩ := h.run hsplit hsome hfit
  set inner : Shell :=
    { sh with env := alibsEnv cmd (argList c names) sh, log := sh.log ++ es } with hinner
  have hout : OutNamed inner.env o := alibsEnv_out h.out
  have hcwd : sh'.cwd = sh.cwd ++ [o, libsName] := by
    rw [hbuilt.cwd, enterLibs_eq hout hfit.libs]
  have hisDir := hbuilt.isDir_eq inner hout hfit.libs
  have hlog : ∃ es₁, sh'.log = sh.log ++ es₁ ∧ built es₁ = is := by
    obtain ⟨es₁, heq, hb, _⟩ := hbuilt.log
    refine ⟨es ++ es₁, ?_, ?_⟩
    · rw [heq, enterLibs_eq hout hfit.libs]
      exact List.append_assoc _ _ _
    · rw [built, List.filterMap_append, ← built, ← built, hes, hb, List.nil_append]
  -- what the rest of the loop reports is what the run has built beyond `is`
  have hbuilds : ∀ es₂, (buildLibraries cmd rest sh').log = sh'.log ++ es₂ →
      asked ns = is ++ built es₂ := by
    intro es₂ hes₂
    obtain ⟨es₁, heq, hb⟩ := hlog
    obtain ⟨es₃, heq₃, hb₃⟩ := hs.builds
    have hfinal : sh.log ++ es₃ = sh.log ++ (es₁ ++ es₂) := by
      rw [← heq₃, hrun, leave]
      show ((buildLibraries cmd rest sh').cd _).log = _
      rw [Shell.log_cd, hes₂, heq, List.append_assoc]
    rw [← hb₃, List.append_cancel_left hfinal, built, List.filterMap_append, ← built, ← built, hb]
  have hlength : is.length ≤ 6 := by
    have hlen := congrArg List.length hsplit
    rw [List.length_take, List.length_append] at hlen
    omega
  cases hr : rest with
  | nil =>
    have hnow : asked ns = is := by
      rw [hbuilds [] (by rw [hr, buildLibraries, List.append_nil])]
      exact List.append_nil is
    refine ⟨?_, hs.libs_free, fun l hl => hs.lib_free hl, ?_, ?_⟩
    · rw [hnow]
      exact hlength
    · rw [hnow]
      exact hpresent
    · intro n hn hlt
      exfalso
      rw [hnow] at hn hlt
      have hlen := congrArg List.length hsplit
      rw [hr, List.append_nil, List.length_take] at hlen
      rw [List.getElem?_eq_none (by omega)] at hn
      exact absurd hn (by simp)
  | cons n rs =>
    have hn : known sh.disk sh.cwd n = false := by
      have hhead : rest.head? = some n := by rw [hr]; rfl
      have hdrop := List.head?_dropWhile_not (known sh.disk sh.cwd) (ns.take 6)
      rw [← hrest, hhead] at hdrop
      simpa using hdrop
    have hns' : ns = is ++ n :: (rs ++ ns.drop 6) := by
      rw [hr, List.cons_append] at hall
      exact hall
    have htest := isDir_upTwo hcwd n
    rw [hisDir] at htest
    cases hl : Lib.ofName n with
    | some l =>
      -- a library without its folder: the loop ends before a name that was asked for
      exfalso
      have habsent : sh.disk.isDir (sh.cwd ++ [l.name]) = false := by
        rw [known, hl] at hn
        exact hn
      rw [segs_of_plain (Lib.plainName_of_ofName hl), Lib.fold_of_ofName hl, walk_down, walk_nil,
        presentThen_name (h.out_ne_name l)] at htest
      have hstop := hbuilds [.invalidName n] (by
        rw [hr, buildLibraries_of_absent cmd rs (htest.trans habsent)]; rfl)
      have hmore : asked ns = is ++ n :: asked (rs ++ ns.drop 6) := by
        rw [hasked, hr, List.cons_append, asked, List.takeWhile_cons_of_pos (by rw [hl]; rfl),
          asked]
      rw [hmore] at hstop
      exact absurd (List.append_cancel_left hstop) (by simp [built])
    | none =>
      have hnow : asked ns = is := by
        conv_lhs => rw [hns']
        exact asked_append hsome (by simp [hl])
      refine ⟨?_, hs.libs_free, fun l hl => hs.lib_free hl, ?_, ?_⟩
      · rw [hnow]
        exact hlength
      · rw [hnow]
        exact hpresent
      · intro n' hn' _
        have heq : n' = n := by
          rw [hnow] at hn'
          rw [hns', List.getElem?_append_right le_rfl, Nat.sub_self] at hn'
          exact (Option.some.inj hn').symm
        subst heq
        rw [hnow]
        by_contra hthere
        rw [Bool.not_eq_false] at hthere
        obtain ⟨es₂, hes₂⟩ := buildLibrary_log cmd n' sh'
        obtain ⟨es₃, hes₃⟩ := buildLibraries_log cmd rs (buildLibrary cmd n' sh')
        have hgone := hbuilds (.building n' :: es₂ ++ es₃) (by
          rw [hr, buildLibraries_of_present cmd rs (htest.trans hthere), hes₃, hes₂,
            List.append_assoc])
        rw [hnow] at hgone
        have hnil := List.append_cancel_left ((List.append_nil is).trans hgone)
        exact absurd hnil (by simp [built])

end Script

/-- **The names given to `alibs.cmd`.**  The script builds the libraries asked for, touches nothing
else and comes back, exactly when the libraries and the name it stops at allow it. -/
theorem alibs_stops_cleanly_iff {cmd : Interpreter} {sh : Shell} {c : Option Token}
    {names : List Token} {o : Str} (h : Started cmd sh c names o) :
    StopsCleanly (alibsEnv cmd (argList c names) sh) o (names.map Token.text) sh
        (alibs cmd (argList c names) sh) ↔
      TargetsFit sh.disk sh.cwd o (names.map Token.text) :=
  ⟨fit_of_stopsCleanly h, stopsCleanly_of_fit h⟩

/-- A repository with a configuration file and the folders of two libraries and of a test. -/
def checkout : Shell where
  env _ := none
  cwd := ["atools".toList]
  disk := (((Disk.root File).mkdir ["atools".toList, "zlib".toList]).mkdir
    ["atools".toList, "png".toList]).mkdir ["atools".toList, "test".toList]
    |>.put ["atools".toList] [("config.txt".toList, .text
      [⟨"LIBAROMA_SOURCE=D:\\libaroma".toList, by decide⟩,
       ⟨"LIBAROMA_PLATFORM=linux".toList, by decide⟩,
       ⟨"LIBAROMA_GCC=arm-linux-gcc.exe".toList, by decide⟩,
       ⟨"LIBAROMA_AR=arm-linux-ar.exe".toList, by decide⟩])]
  log := []
  clock := 0
  sources := ⟨fun _ => [], fun _ _ h => absurd h List.not_mem_nil⟩

def testToken : Token := ⟨"test".toList, by decide, by decide⟩

/-- A library, a name that is none, and a library again. -/
def stopNames : List Token :=
  [⟨"zlib".toList, by decide, by decide⟩, ⟨"nosuch".toList, by decide, by decide⟩,
    ⟨"png".toList, by decide, by decide⟩]

theorem checkout_started {names : List Token} (hnames : names = stopNames ∨ names = [testToken]) :
    Started (.idle true) checkout none names "out-linux_".toList := by
  refine ⟨⟨by simp, ?_, fun _ _ => rfl, by decide +kernel, fun _ => by decide +kernel⟩, ?_, ?_, ?_,
    ?_, ?_, ?_⟩
  · rintro - n hn
    rcases hnames with rfl | rfl
    · obtain rfl : n = ⟨"zlib".toList, by decide, by decide⟩ := (Option.mem_some_iff.mp hn).symm
      decide +kernel
    · obtain rfl : n = testToken := (Option.mem_some_iff.mp hn).symm
      decide +kernel
  · rcases hnames with rfl | rfl
    · exact List.cons_ne_nil _ _
    · exact List.cons_ne_nil _ _
  · decide +kernel
  · rcases hnames with rfl | rfl
    · decide +kernel
    · decide +kernel
  · rcases hnames with rfl | rfl
    · decide +kernel
    · decide +kernel
  · rcases hnames with rfl | rfl
    · decide +kernel
    · decide +kernel
  · decide +kernel

/-- `alibs.cmd zlib nosuch png` builds zlib and stops. -/
theorem alibs_zlib_stops_cleanly :
    StopsCleanly (alibsEnv (.idle true) (argList none stopNames) checkout) "out-linux_".toList
      ["zlib".toList, "nosuch".toList, "png".toList] checkout
      (alibs (.idle true) (argList none stopNames) checkout) := by
  refine (alibs_stops_cleanly_iff (checkout_started (Or.inl rfl))).mpr ⟨?_, ?_, ?_, ?_, ?_⟩
  · decide
  · decide +kernel
  · decide +kernel
  · decide +kernel
  · intro n hn _
    obtain rfl : "nosuch".toList = n := Option.some.inj hn
    decide +kernel

/-- `alibs.cmd test`: the folder of the test program lies next to the scripts, so it counts as a
library; it is reported as built and gets a folder in `out\libs` and a part in the archive. -/
theorem alibs_builds_folder :
    ¬ StopsCleanly (alibsEnv (.idle true) (argList none [testToken]) checkout) "out-linux_".toList
      ["test".toList] checkout (alibs (.idle true) (argList none [testToken]) checkout) := by
  intro h
  have hfit := fit_of_stopsCleanly (checkout_started (Or.inr rfl)) h
  have hstop := hfit.stop "test".toList (by decide) (by decide)
  revert hstop
  decide +kernel

end Atools
