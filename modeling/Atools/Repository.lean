import Atools.Abuild
import Atools.Invocation

/-!
# The scripts in a repository

A repository is a folder with the folders of the libraries and with out folders the scripts have
made: an out folder holds archives, never a file where a script makes a folder (`OutFolder`).  In
such a repository alibs.cmd builds what it is asked for and changes one archive (`alibs_builds`),
and abuild.cmd, once the dependencies are there, changes the other one (`abuild_builds`).
-/

namespace Atools

open Batch

/-! ### Settings under which the libraries are built alike -/

/-- The libraries the settings ask for. -/
def neededLibs (env : Env) : List Lib :=
  [.zlib, .png, .freetype] ++ (if drmNeeded env then [.drm] else []) ++
  (if isSet env "LIBAROMA_JPEG" "yes" then [.jpeg] else []) ++
  (if isSet env "LIBAROMA_HARFBUZZ" "yes" then [.harfbuzz] else [])

theorem defaultLibs_eq (env : Env) : defaultLibs env = (neededLibs env).map Lib.name := by
  rw [defaultLibs, neededLibs]
  simp only [List.map_append]
  congr 1
  · congr 1
    · congr 1
      split <;> rfl
    · split <;> rfl
  · split <;> rfl

theorem libsOf_names (ls : List Lib) : libsOf (ls.map Lib.name) = ls := by
  rw [libsOf, List.filterMap_map]
  have hsome : (Lib.ofName ∘ Lib.name) = some := by
    funext l
    exact Lib.ofName_name l
  rw [hsome, List.filterMap_some]

theorem SameBuild.drmNeeded {env env' : Env} (h : SameBuild env env') :
    drmNeeded env' = drmNeeded env := by
  rw [Atools.drmNeeded, Atools.drmNeeded, h.test (by decide) (by decide),
    h.test (by decide) (by decide)]

theorem SameBuild.neededLibs {env env' : Env} (h : SameBuild env env') :
    neededLibs env' = neededLibs env := by
  rw [Atools.neededLibs, Atools.neededLibs, h.drmNeeded, h.test (by decide) (by decide),
    h.test (by decide) (by decide)]

theorem SameBuild.libSources {env env' : Env} (h : SameBuild env env') (l : Lib) :
    l.sources env' = l.sources env := by
  have hcpu : isSet env' "LIBAROMA_CPU" "neon" = isSet env "LIBAROMA_CPU" "neon" :=
    h.test (by decide) (by decide) _
  cases l with
  | zlib | freetype | harfbuzz => rfl
  | png | jpeg => simp only [Lib.sources, hcpu]
  | drm => simp only [Lib.sources, h.drmNeeded]

theorem SameBuild.libFlags {env env' : Env} (h : SameBuild env env') (l : Lib) :
    l.flags env' = l.flags env := by
  have hcpu : isSet env' "LIBAROMA_CPU" "neon" = isSet env "LIBAROMA_CPU" "neon" :=
    h.test (by decide) (by decide) _
  have hplatform : isSet env' "LIBAROMA_PLATFORM" "linux" = isSet env "LIBAROMA_PLATFORM" "linux" :=
    h.test (by decide) (by decide) _
  have hharfbuzz : isSet env' "LIBAROMA_HARFBUZZ" "yes" = isSet env "LIBAROMA_HARFBUZZ" "yes" :=
    h.test (by decide) (by decide) _
  cases l with
  | zlib => simp only [Lib.flags, h.flags, hplatform]
  | png | harfbuzz | drm => simp only [Lib.flags, h.flags]
  | freetype => simp only [Lib.flags, h.flags, hharfbuzz]
  | jpeg => simp only [Lib.flags, h.flags, hcpu]

/-- The sources and flags that a run over libraries archives. -/
def archivedPairs (env : Env) (ls : List Lib) : List (Str × List Str) :=
  ls.flatMap fun l => (l.sources env).map fun s => (s, l.flags env)

theorem SameBuild.archivedPairs {env env' : Env} (h : SameBuild env env') (ls : List Lib) :
    archivedPairs env' ls = archivedPairs env ls := by
  rw [Atools.archivedPairs, Atools.archivedPairs]
  apply List.flatMap_congr
  intro l _
  rw [h.libSources, h.libFlags]

theorem archivedPairs_cons (env : Env) (l : Lib) (ls : List Lib) :
    archivedPairs env (l :: ls) =
      (l.sources env).map (fun s => (s, l.flags env)) ++ archivedPairs env ls :=
  List.flatMap_cons

theorem mem_archivedPairs {env : Env} {ls : List Lib} {s : Str} {f : List Str} :
    (s, f) ∈ archivedPairs env ls ↔ ∃ l ∈ ls, s ∈ l.sources env ∧ f = l.flags env := by
  rw [archivedPairs, List.mem_flatMap]
  apply exists_congr
  intro l
  apply and_congr_right
  intro _
  rw [List.mem_map]
  constructor
  · rintro ⟨s', hs', heq⟩
    rw [Prod.mk.injEq] at heq
    obtain ⟨rfl, rfl⟩ := heq
    exact ⟨hs', rfl⟩
  · rintro ⟨hs, rfl⟩
    exact ⟨s, hs, rfl⟩

/-- What a run archives, without the stamps of the compiler calls. -/
theorem map_libWrites (env : Env) (t : ℕ) (ls : List Lib) :
    (libWrites env t ls).map (fun w => (w.1, (w.2.src, w.2.flags))) =
      (archivedPairs env ls).map fun x => (objectName x.1, x) := by
  induction ls generalizing t with
  | nil => rfl
  | cons l ls ih =>
    rw [libWrites, List.map_append, ih, archivedPairs_cons, List.map_append]
    congr 1
    rw [objects, List.map_map, List.map_map]
    rfl

/-! ### The disk of a repository -/

/-- An out folder as the scripts leave it, or none at all. -/
structure OutFolder (d : Disk File) (p : Path) : Prop where
  folder : d.fileAt p = none
  libs : d.file p libsName = none
  aroma : d.file p aromaName = none
  inLibs : ∀ n, d.file (p ++ [libsName]) n = none
  deps : archivable d (p ++ [depsName]) = true
  libaroma : archivable d (p ++ [libaromaName]) = true

/-- Where nothing is there is a proper out folder. -/
theorem OutFolder.of_absent {d : Disk File} {p : Path} (hfile : d.fileAt p = none)
    (hdir : d.isDir p = false) : OutFolder d p := by
  have hnone : d.folder p = none := Disk.folder_eq_none List.prefix_rfl hdir
  have hfiles : ∀ n, d.file p n = none := by
    intro n
    rw [Disk.file, hnone]; rfl
  have hbelow : ∀ n, d.folder (p ++ [n]) = none := fun n =>
    Disk.folder_eq_none (List.prefix_append p [n]) hdir
  have harch : ∀ n, archivable d (p ++ [n]) = true := by
    intro n
    rw [archivable, Disk.isDir, hbelow, Disk.fileAt_concat, hfiles]; rfl
  refine ⟨hfile, hfiles _, hfiles _, ?_, harch _, harch _⟩
  intro n
  rw [Disk.file, hbelow]; rfl

/-- A repository at `r`, seen between two runs of the scripts. -/
structure Repository (r : Path) (e : Env) (sh : Shell) : Prop where
  cwd : sh.cwd = r
  env : sh.env = e
  home : sh.disk.isDir r = true
  libs : ∀ l : Lib, sh.disk.isDir (r ++ [l.name]) = true
  outs : ∀ o, outFolderName o → OutFolder sh.disk (r ++ [o])

/-- No file is in the way of `libs` in an out folder. -/
theorem OutFolder.libs_free {d : Disk File} {r : Path} {o : Str} (h : OutFolder d (r ++ [o]))
    (hr : d.isDir r = true) : d.blocked (r ++ [o, libsName]) = false := by
  rw [Disk.blocked_eq_false_iff]
  intro q hq
  rw [show r ++ [o, libsName] = r ++ [o] ++ [libsName] by simp] at hq
  rcases List.prefix_concat_iff.mp hq with rfl | hq
  · rw [Disk.fileAt_concat]
    exact h.libs
  · rcases List.prefix_concat_iff.mp hq with rfl | hq
    · exact h.folder
    · exact Disk.fileAt_of_isDir (Disk.isDir_above hq hr)

theorem Repository.libsFit {r : Path} {e : Env} {sh : Shell} (h : Repository r e sh) {o : Str}
    (ho : outFolderName o) (ls : List Lib) : LibsFit sh.disk r o ls where
  libs := (h.outs o ho).libs_free h.home
  free l _ := by
    rw [show r ++ [o, libsName] = r ++ [o] ++ [libsName] by simp]
    exact (h.outs o ho).inLibs l.name
  archive := by
    rw [show r ++ [o, depsName] = r ++ [o] ++ [depsName] by simp]
    exact (h.outs o ho).deps
  present l _ := h.libs l

/-! ### What `alibs.cmd` changes -/

/-- A run of alibs.cmd into the out folder `o`: its archive of dependencies has got the objects `ws`,
and outside the out folder nothing has changed. -/
structure DepsChange (d d' : Disk File) (r : Path) (o : Str) (ws : List (Str × Obj)) : Prop where
  frame : ∀ q, ¬ r ++ [o] <+: q → d'.folder q = d.folder q
  isDir : d'.isDir (r ++ [o]) = true
  out : OutFolder d' (r ++ [o])
  files : ∀ n, n ≠ depsName → d'.file (r ++ [o]) n = d.file (r ++ [o]) n
  dirs : ∀ n, n ≠ libsName → d'.isDir (r ++ [o] ++ [n]) = d.isDir (r ++ [o] ++ [n])
  archive : ∃ a, d'.file (r ++ [o]) depsName = some (.archive a) ∧
    ∀ n, a.lookup n = (lastWrite n ws).or ((members d (r ++ [o] ++ [depsName])).lookup n)

theorem not_lib_below {r : Path} {o n : Str} (l : Lib) :
    ¬ r ++ [o, libsName] ++ [l.name] <+: r ++ [o] ++ [n] := by
  intro h
  have hlen := h.length_le
  simp only [List.length_append, List.length_cons, List.length_nil] at hlen
  omega

/-- From a run over libraries to what it changes. -/
theorem LibrariesBuilt.depsChange {inner sh' : Shell} {o : Str} {is : List Str}
    (hout : OutNamed inner.env o) (hfit : OutFolder inner.disk (inner.cwd ++ [o]))
    (hhome : inner.disk.isDir inner.cwd = true) (hne : is ≠ [])
    (h : LibrariesBuilt (enterLibs inner) sh' (inner.cwd ++ [o]) is) :
    DepsChange inner.disk sh'.disk inner.cwd o (libWrites inner.env inner.clock (libsOf is)) := by
  have hfree := hfit.libs_free hhome
  have henter := enterLibs_eq hout hfree
  have hpath : (enterLibs inner).cwd = inner.cwd ++ [o, libsName] := by rw [henter]
  have hfile : ∀ q n, (enterLibs inner).disk.file q n = inner.disk.file q n := by
    intro q n
    rw [henter]
    exact Disk.file_mkdir _ _ q n
  have hisDir := h.isDir_eq inner hout hfree
  have hwhere : ∀ n, presentThen inner.disk (inner.cwd ++ [o, libsName]) (libsOf is)
      (inner.cwd ++ [o] ++ [n]) =
      (decide (inner.cwd ++ [o] ++ [n] <+: inner.cwd ++ [o, libsName]) ||
        inner.disk.isDir (inner.cwd ++ [o] ++ [n])) := by
    intro n
    rw [presentThen, if_neg]
    rw [Bool.not_eq_true, List.any_eq_false]
    intro l _ hl
    exact not_lib_below l (of_decide_eq_true hl)
  have hlibs : sh'.disk.isDir (inner.cwd ++ [o] ++ [libsName]) = true := by
    rw [hisDir, hwhere, decide_eq_true]
    · rfl
    · rw [show inner.cwd ++ [o, libsName] = inner.cwd ++ [o] ++ [libsName] by simp]
  have hother : ∀ n, n ≠ libsName → sh'.disk.isDir (inner.cwd ++ [o] ++ [n]) =
      inner.disk.isDir (inner.cwd ++ [o] ++ [n]) := by
    intro n hn
    rw [hisDir, hwhere, decide_eq_false]
    · rfl
    · rw [show inner.cwd ++ [o, libsName] = inner.cwd ++ [o] ++ [libsName] by simp]
      intro hp
      have heq := hp.eq_of_length (by simp)
      exact hn (List.singleton_inj.mp (List.append_cancel_left heq))
  have hdir : sh'.disk.isDir (inner.cwd ++ [o]) = true :=
    Disk.isDir_above (List.prefix_append _ _) hlibs
  have hfiles : ∀ n, n ≠ depsName →
      sh'.disk.file (inner.cwd ++ [o]) n = inner.disk.file (inner.cwd ++ [o]) n := by
    intro n hn
    rw [h.files n hn, hfile]
  obtain ⟨a, ha⟩ := h.archive hne
  have hmembers : ∀ d : Disk File, d.file (inner.cwd ++ [o]) depsName = some (.archive a) →
      members d (inner.cwd ++ [o] ++ [depsName]) = a := by
    intro d hd
    rw [members, Disk.fileAt_concat, hd]
  have hold : members (enterLibs inner).disk (inner.cwd ++ [o] ++ [depsName]) =
      members inner.disk (inner.cwd ++ [o] ++ [depsName]) := by
    rw [members, members, Disk.fileAt_concat, Disk.fileAt_concat, hfile]
  refine ⟨?_, hdir, ⟨Disk.fileAt_of_isDir hdir, ?_, ?_, ?_, ?_, ?_⟩, hfiles, hother, a, ha, ?_⟩
  · intro q hq
    have hqo : q ≠ inner.cwd ++ [o] := by
      rintro rfl
      exact hq List.prefix_rfl
    have hnot : ¬ q <+: inner.cwd ++ [o, libsName] ∨ q <+: inner.cwd := by
      by_contra hcon
      rw [not_or, not_not] at hcon
      obtain ⟨hp, hn⟩ := hcon
      rw [show inner.cwd ++ [o, libsName] = inner.cwd ++ [o] ++ [libsName] by simp] at hp
      rcases List.prefix_concat_iff.mp hp with rfl | hp
      · exact hq (List.prefix_append _ _)
      · rcases List.prefix_concat_iff.mp hp with rfl | hp
        · exact hq List.prefix_rfl
        · exact hn hp
    rw [h.frame q hqo, henter]
    · show (inner.disk.mkdir _).folder q = _
      rcases hnot with hnot | hnot
      · rw [Disk.folder_mkdir hfree, if_neg hnot]
      · exact Disk.folder_mkdir_of_isDir (Disk.isDir_above hnot hhome)
    · intro l _ hl
      rw [hpath] at hl
      apply hq
      refine List.IsPrefix.trans ?_ hl
      rw [show inner.cwd ++ [o, libsName] ++ [l.name] = inner.cwd ++ [o] ++ [libsName, l.name] by simp]
      exact List.prefix_append _ _
  · rw [← Disk.fileAt_concat]
    exact Disk.fileAt_of_isDir hlibs
  · rw [hfiles _ (by decide)]
    exact hfit.aroma
  · intro n
    have hframe := h.frame (inner.cwd ++ [o] ++ [libsName]) (by simp) (by
      intro l _ hl
      rw [hpath] at hl
      exact not_lib_below l hl)
    rw [Disk.file, hframe, ← Disk.file, hfile]
    exact hfit.inLibs n
  · have harch := hfit.deps
    rw [archivable, Bool.and_eq_true] at harch ⊢
    rw [hother _ (by decide), Disk.fileAt_concat, ha]
    exact ⟨harch.1, rfl⟩
  · have harch := hfit.libaroma
    rw [archivable, Bool.and_eq_true] at harch ⊢
    rw [hother _ (by decide), Disk.fileAt_concat, hfiles _ (by decide), ← Disk.fileAt_concat]
    exact harch
  · intro n
    rw [← hmembers _ ha, h.holds n, hold, enterLibs_env, henter]

/-- All targets are libraries, named or not. -/
theorem targetLibs_known (env : Env) {names : List Token}
    (hnames : ∀ n ∈ names, (Lib.ofName n.text).isSome) :
    ∀ i ∈ targetLibs env (names.map Token.text), (Lib.ofName i).isSome := by
  intro i hi
  rw [targetLibs] at hi
  split at hi
  · rw [defaultLibs_eq] at hi
    obtain ⟨l, _, rfl⟩ := List.mem_map.mp hi
    rw [Lib.ofName_name]; rfl
  · obtain ⟨n, hn, rfl⟩ := List.mem_map.mp (List.mem_of_mem_take hi)
    exact hnames n hn

/-- **A run of alibs.cmd** for libraries, in a repository. -/
theorem alibs_builds (cmd : Interpreter) {r : Path} {e : Env} {sh : Shell} {c : Option Token}
    {names : List Token} {o : Str} (h : Repository r e sh) (hinv : Invoked sh c names)
    (hnames : ∀ n ∈ names, (Lib.ofName n.text).isSome)
    (hcomplete : complete (alibsSettings cmd (argList c names) sh).env)
    (hout : OutNamed (alibsSettings cmd (argList c names) sh).env o) :
    ∃ d clock es, alibs cmd (argList c names) sh =
        { sh with disk := d, clock := clock, log := sh.log ++ es } ∧
      sh.clock ≤ clock ∧
      loads es = [(resolve sh.cwd (configName (cfgArg c)),
        (alibsSettings cmd (argList c names) sh).env)] ∧
      DepsChange sh.disk d r o (libWrites (alibsEnv cmd (argList c names) sh) sh.clock
        (libsOf (targetLibs (alibsEnv cmd (argList c names) sh) (names.map Token.text)))) := by
  obtain ⟨es, hshift, _, hloads⟩ := alibs_invoked cmd hinv
  set inner : Shell :=
    { sh with env := alibsEnv cmd (argList c names) sh, log := sh.log ++ es } with hinner
  set is := targetLibs inner.env (names.map Token.text) with his
  have ho := outFolderName_of_alibs hcomplete hout
  have hcwd : inner.cwd = r := h.cwd
  have hout' : OutNamed inner.env o := alibsEnv_out hout
  have hfolder : OutFolder inner.disk (inner.cwd ++ [o]) := by
    rw [hcwd]
    exact h.outs o ho
  have hhome : inner.disk.isDir inner.cwd = true := by
    rw [hcwd]
    exact h.home
  have hsome : ∀ i ∈ is, (Lib.ofName i).isSome := targetLibs_known inner.env hnames
  have hne : is ≠ [] := by
    rw [his, targetLibs]
    split
    · rw [defaultLibs_eq, ne_eq, List.map_eq_nil_iff]
      exact List.cons_ne_nil _ _
    · rename_i hnil
      intro htake
      rw [List.take_eq_nil_iff] at htake
      exact hnil (htake.resolve_left (by decide))
  have hfit : LibsFit inner.disk inner.cwd o (libsOf is) := by
    rw [hcwd]
    exact h.libsFit ho _
  obtain ⟨sh', hrun, hbuilt⟩ := buildLibraries_spec cmd (inner.cwd ++ [o]) is [] _ hsome
    (hfit.ready hout')
  have hchange := hbuilt.depsChange hout' hfolder hhome hne
  have henter := enterLibs_eq hout' hfit.libs
  have hcwd' : sh'.cwd = sh.cwd ++ [o, libsName] := by rw [hbuilt.cwd, henter]
  have hback : sh'.disk.isDir sh.cwd = true := by
    rw [Disk.isDir, hchange.frame sh.cwd (not_concat_prefix_self _ _)]
    exact hhome
  obtain ⟨es', hlog, _, hloads'⟩ := hbuilt.log
  refine ⟨sh'.disk, sh'.clock, es ++ es', ?_, ?_, ?_, ?_⟩
  · rw [alibs_eq cmd _ sh hcomplete.1 hcomplete.2, hshift, buildTargets]
    show leave cmd sh ((buildLibraries cmd (targetLibs (enterLibs inner).env
      (names.map Token.text)) (enterLibs inner)).cd "..\\..".toList) = _
    rw [enterLibs_env, ← his, ← List.append_nil is, hrun, buildLibraries,
      leave_libs cmd sh sh' hcwd' hback]
    have hsources : sh'.sources = sh.sources := by rw [hbuilt.sources, henter]
    have hlog' : sh'.log = sh.log ++ (es ++ es') := by
      rw [hlog, henter, ← List.append_assoc]
    rw [← hsources, ← hlog']
  · have hclock := hbuilt.clock
    rw [henter] at hclock
    exact hclock
  · rw [loads, List.filterMap_append, ← loads, ← loads, hloads, hloads', List.append_nil]
  · rw [← h.cwd]
    exact hchange

/-! ### What `abuild.cmd` changes -/

/-- The disk before and after libaroma is built into the out folder `o`: only the object folder and
the archive of libaroma have changed. -/
structure AromaChange (d d' : Disk File) (r : Path) (o : Str) : Prop where
  frame : ∀ q, ¬ r ++ [o] <+: q → d'.folder q = d.folder q
  isDir : d'.isDir (r ++ [o]) = true
  out : OutFolder d' (r ++ [o])
  files : ∀ n, n ≠ libaromaName → d'.file (r ++ [o]) n = d.file (r ++ [o]) n
  dirs : ∀ n, n ≠ aromaName → d'.isDir (r ++ [o] ++ [n]) = d.isDir (r ++ [o] ++ [n])

theorem not_aroma_below {p : Path} {n : Str} (h : n ≠ aromaName) : ¬ p ++ [aromaName] <+: p ++ [n] := by
  intro hp
  have heq := hp.eq_of_length (by simp)
  exact h (List.singleton_inj.mp (List.append_cancel_left heq)).symm

/-- From one build of libaroma to what it changes. -/
theorem aromaChange_of_build {d d₁ d' : Disk File} {r : Path} {o : Str}
    {ws : List (Str × Obj)} (hfit : AromaFit d r o) (hout : OutFolder d (r ++ [o]))
    (h₁ : ∀ q, d₁.folder q = if q = r ++ [o] ++ [aromaName] then some (objectFolder ws)
      else if r ++ [o] ++ [aromaName] <+: q then none else d.folder q)
    (hd : d' = d₁ ∨ ∃ a, d' = d₁.write (r ++ [o] ++ [libaromaName]) (.archive a)) :
    AromaChange d d' r o := by
  set p := r ++ [o] with hp
  have hfolder : ∀ q, q ≠ p → d'.folder q = d₁.folder q := by
    intro q hq
    rcases hd with rfl | ⟨a, rfl⟩
    · rfl
    · rw [Disk.write_concat, Disk.folder_put_ne _ _ hq]
  have hisDir : ∀ q, d'.isDir q = d₁.isDir q := by
    intro q
    rcases hd with rfl | ⟨a, rfl⟩
    · rfl
    · exact Disk.isDir_write _ _ q _
  have hpne : p ≠ p ++ [aromaName] := by simp
  have hfile₁ : ∀ n, d₁.file p n = d.file p n := by
    intro n
    rw [Disk.file, h₁, if_neg hpne, if_neg (not_concat_prefix_self _ _)]; rfl
  have hfiles : ∀ n, n ≠ libaromaName → d'.file p n = d.file p n := by
    intro n hn
    rw [← hfile₁]
    rcases hd with rfl | ⟨a, rfl⟩
    · rfl
    · rw [Disk.write_concat, Disk.file, Disk.folder_put, if_pos rfl, Disk.file]
      cases d₁.folder p with
      | none => rfl
      | some f =>
        show (writeAll f _).lookup n = f.lookup n
        rw [lookup_writeAll, lastWrite_eq_none_iff.mpr, Option.none_or]
        intro w hw
        have hw' := List.mem_singleton.mp (List.mem_of_mem_filter hw)
        rw [hw']
        exact hn.symm
  have hbelow : ∀ n, n ≠ aromaName → d'.isDir (p ++ [n]) = d.isDir (p ++ [n]) := by
    intro n hn
    have hne : p ++ [n] ≠ p ++ [aromaName] := by
      intro h
      exact hn (List.singleton_inj.mp (List.append_cancel_left h))
    rw [hisDir, Disk.isDir, h₁, if_neg hne, if_neg (not_aroma_below hn)]; rfl
  have haroma : d'.isDir (p ++ [aromaName]) = true := by
    rw [hisDir, Disk.isDir, h₁, if_pos rfl]; rfl
  have hdir : d'.isDir p = true := Disk.isDir_above (List.prefix_append _ _) haroma
  refine ⟨?_, hdir, ⟨Disk.fileAt_of_isDir hdir, ?_, ?_, ?_, ?_, ?_⟩, hfiles, hbelow⟩
  · intro q hq
    have hqp : q ≠ p := by
      rintro rfl
      exact hq List.prefix_rfl
    have hqa : ¬ p ++ [aromaName] <+: q := fun h => hq ((List.prefix_append _ _).trans h)
    have hqt : q ≠ p ++ [aromaName] := by
      rintro rfl
      exact hqa List.prefix_rfl
    rw [hfolder q hqp, h₁, if_neg hqt, if_neg hqa]
  · rw [hfiles _ (by decide)]
    exact hout.libs
  · rw [← Disk.fileAt_concat]
    exact Disk.fileAt_of_isDir haroma
  · intro n
    have hne : p ++ [libsName] ≠ p ++ [aromaName] := by
      intro h
      exact absurd (List.singleton_inj.mp (List.append_cancel_left h)) (by decide)
    have hnp : p ++ [libsName] ≠ p := fun h => absurd (congrArg List.length h) (by simp)
    rw [Disk.file, hfolder _ hnp, h₁, if_neg hne, if_neg (not_aroma_below (by decide))]
    exact hout.inLibs n
  · have harch := hout.deps
    rw [archivable, Bool.and_eq_true] at harch ⊢
    rw [hbelow _ (by decide), Disk.fileAt_concat, hfiles _ (by decide), ← Disk.fileAt_concat]
    exact harch
  · have harch := hfit.archive
    rw [archivable, Bool.and_eq_true] at harch ⊢
    rw [hbelow _ (by decide)]
    refine ⟨harch.1, ?_⟩
    rcases hd with rfl | ⟨a, rfl⟩
    · rw [Disk.fileAt_concat, hfile₁, ← Disk.fileAt_concat]
      exact harch.2
    · have hnodir : d₁.isDir (p ++ [libaromaName]) = false := by
        have hold := harch.1
        rw [Bool.not_eq_true'] at hold
        rw [← hisDir, hbelow _ (by decide)]
        exact hold
      obtain ⟨f, hf⟩ := Option.isSome_iff_exists.mp (show d₁.isDir p = true by rw [← hisDir, hdir])
      rw [Disk.write_concat, Disk.fileAt_concat, Disk.file,
        Disk.folder_put_self hf (by
          intro w hw
          rw [List.mem_singleton.mp hw]
          exact hnodir)]
      show extendable ((writeAll f [(libaromaName, .archive a)]).lookup libaromaName) = true
      rw [lookup_writeAll, lastWrite_singleton, if_pos rfl]; rfl

/-- The settings as abuild.cmd and atest.cmd load them. -/
def loadedEnv (cmd : Interpreter) (c : Option Token) (sh : Shell) : Env :=
  (loadSettings cmd (cfgArg c) (configLines sh (cfgArg c)) sh.env).1

theorem loadedEnv_interp (cmd cmd' : Interpreter) {c : Option Token} {sh : Shell}
    (hlines : ∀ l ∈ configLines sh (cfgArg c), handsSwitch l.text = false) :
    loadedEnv cmd' c sh = loadedEnv cmd c sh := by
  rw [loadedEnv, loadedEnv, loadSettings_interp cmd cmd' _ sh.env hlines]

/-- alibs.cmd and arun.cmd come to the settings abuild.cmd would load. -/
theorem Invoked.sameSettings {cmd : Interpreter} {sh : Shell} {c : Option Token}
    {names : List Token} (hinv : Invoked sh c names) (hcomplete : complete (loadedEnv cmd c sh)) :
    SameSettings (loadedEnv cmd c sh) (alibsSettings cmd (argList c names) sh).env := by
  obtain ⟨start, es, heq, _, _, hstart⟩ := alibsSettings_eq cmd (argList c names) sh
  rw [hinv.alibsArg] at heq
  rw [heq]
  refine loadSettings_congr cmd (cfgArg c) hinv.switches hcomplete ?_
  rw [hstart]
  split
  · exact sameSettings_assign (fun _ _ => rfl) (by decide) _
  · exact fun _ _ => rfl

/-- alibs.cmd builds as abuild.cmd would. -/
theorem Invoked.sameBuild {cmd : Interpreter} {sh : Shell} {c : Option Token}
    {names : List Token} (hinv : Invoked sh c names) (hcomplete : complete (loadedEnv cmd c sh)) :
    SameBuild (loadedEnv cmd c sh) (alibsSettings cmd (argList c names) sh).env := by
  have hsame := hinv.sameSettings hcomplete
  obtain ⟨start, es, heq, _⟩ := alibsSettings_eq cmd (argList c names) sh
  rw [hinv.alibsArg] at heq
  rw [heq] at hsame ⊢
  exact sameBuild_of_loaded cmd (cfgArg c) hinv.switches hcomplete hsame

/-- The settings alibs.cmd ends with when it is called with the settings already loaded. -/
theorem alibsSettings_again (cmd : Interpreter) (sh : Shell) {inner : Shell} {c : Option Token}
    (hinv : Invoked inner c []) (hlines : configLines inner = configLines sh)
    (hcomplete : complete (loadedEnv cmd c sh)) (hsame : SameSettings (loadedEnv cmd c sh) inner.env) :
    Reloaded (configLines sh (cfgArg c)) (loadedEnv cmd c sh)
      (alibsSettings cmd (argList c []) inner).env := by
  obtain ⟨env, es, heq, _, _, henv⟩ := alibsSettings_eq cmd (argList c []) inner
  rw [hinv.alibsArg, hlines] at heq
  have hsame' : SameSettings (loadedEnv cmd c sh) env := by
    intro v hv
    rw [henv]
    split
    · rw [Env.get_assign_ne _ _ (ne_of_settingVar hv (by decide))]
      exact hsame v hv
    · exact hsame v hv
  have hswitches := hinv.switches
  rw [hlines] at hswitches
  have hagain := loadSettings_again cmd (cfgArg c) hswitches hcomplete hsame'
  rw [heq]
  exact hagain

theorem alibsEnv_sameBuild (cmd : Interpreter) (args : List Str) (sh : Shell) :
    SameBuild (alibsSettings cmd args sh).env (alibsEnv cmd args sh) where
  get v hv _ := shiftConfig_get_ne _ _ (ne_of_settingVar hv (by decide))
  flags := Env.text_congr (shiftConfig_get_ne _ _ (by decide))

theorem SameSettings.outNamed {env env' : Env} (h : SameSettings env env') {o : Str}
    (hout : OutNamed env o) : OutNamed env' o := by
  rw [OutNamed, h.text (by decide)]
  exact hout

theorem SameBuild.outNamed {env env' : Env} (h : SameBuild env env') {o : Str}
    (hout : OutNamed env o) : OutNamed env' o := by
  have htext : env'.text "LIBAROMA_OUT" = env.text "LIBAROMA_OUT" :=
    Env.text_congr (h.get _ (by decide) (by decide))
  rw [OutNamed, htext]
  exact hout

/-! ### Looking into the out folder -/

section OutFile

variable {env : Env} {o : Str}

/-- A name after the out folder stands for one in it. -/
theorem resolve_outFile (hout : OutNamed env o) (cwd : Path) {s n : Str} (hs : segs s = [.down n]) :
    resolve cwd (env.text "LIBAROMA_OUT" ++ '\\' :: s) = cwd ++ [o] ++ [n] := by
  rw [resolve_out hout, hs]
  rfl

theorem resolve_libadeps (hout : OutNamed env o) (cwd : Path) :
    resolve cwd (env.text "LIBAROMA_OUT" ++ "\\libadeps.a".toList) = cwd ++ [o] ++ [depsName] :=
  @resolve_outFile _ _ hout cwd "libadeps.a".toList _ (by decide)

theorem resolve_libaroma (hout : OutNamed env o) (cwd : Path) :
    resolve cwd (env.text "LIBAROMA_OUT" ++ "\\libaroma.a".toList) =
      cwd ++ [o] ++ [libaromaName] :=
  @resolve_outFile _ _ hout cwd "libaroma.a".toList _ (by decide)

theorem exist_of_resolve {sh : Shell} {s n : Str} {p : Path} (h : resolve sh.cwd s = p ++ [n]) :
    sh.exist s = (sh.disk.isDir (p ++ [n]) || (sh.disk.file p n).isSome) := by
  rw [Shell.exist, h, Disk.existsAt_concat]

/-- `if not exist "%LIBAROMA_OUT%\libadeps.a"` in a repository. -/
theorem exist_deps {sh : Shell} (hout : OutNamed sh.env o)
    (hfolder : OutFolder sh.disk (sh.cwd ++ [o])) :
    sh.exist (sh.env.text "LIBAROMA_OUT" ++ "\\libadeps.a".toList) =
      (sh.disk.file (sh.cwd ++ [o]) depsName).isSome := by
  have hdir := hfolder.deps
  rw [archivable, Bool.and_eq_true, Bool.not_eq_true'] at hdir
  rw [exist_of_resolve (resolve_libadeps hout sh.cwd), hdir.1, Bool.false_or]

end OutFile

/-- The dependencies before libaroma is built: there already, or built now with the settings loaded
again. -/
inductive DepsReady (lines : List Line) (env : Env) (d d' : Disk File) (r : Path) (o : Str)
    (t : ℕ) : List (Path × Env) → Prop
  | there : (d.file (r ++ [o]) depsName).isSome → d' = d → DepsReady lines env d d' r o t []
  | made (cfg : Path) (env₂ env' : Env) : d.file (r ++ [o]) depsName = none →
      Reloaded lines env env₂ → SameBuild env env' →
      DepsChange d d' r o (libWrites env' t (neededLibs env')) →
      DepsReady lines env d d' r o t [(cfg, env₂)]

section DepsReady

variable {lines : List Line} {env : Env} {d d' : Disk File} {r : Path} {o : Str} {t : ℕ}
  {ls : List (Path × Env)}

theorem DepsReady.outFolder (h : DepsReady lines env d d' r o t ls)
    (hout : OutFolder d (r ++ [o])) : OutFolder d' (r ++ [o]) ∧ d'.isDir (r ++ [o]) = true := by
  cases h with
  | there hsome heq =>
    rw [heq]
    refine ⟨hout, ?_⟩
    rw [Disk.isDir]
    cases hf : d.folder (r ++ [o]) with
    | none =>
      rw [Disk.file, hf] at hsome
      exact absurd hsome Bool.false_ne_true
    | some f => rfl
  | made cfg env₂ env' _ _ _ hchange => exact ⟨hchange.out, hchange.isDir⟩

theorem DepsReady.isSome (h : DepsReady lines env d d' r o t ls) :
    (d'.file (r ++ [o]) depsName).isSome := by
  cases h with
  | there hsome heq =>
    rw [heq]
    exact hsome
  | made cfg env₂ env' _ _ _ hchange =>
    obtain ⟨a, ha, _⟩ := hchange.archive
    rw [ha]; rfl

theorem DepsReady.kept (h : DepsReady lines env d d' r o t ls)
    (hsome : (d.file (r ++ [o]) depsName).isSome) : d' = d := by
  cases h with
  | there _ heq => exact heq
  | made cfg env₂ env' hnone =>
    rw [hnone] at hsome
    exact absurd hsome Bool.false_ne_true

theorem DepsReady.frame (h : DepsReady lines env d d' r o t ls) {q : Path}
    (hq : ¬ r ++ [o] <+: q) : d'.folder q = d.folder q := by
  cases h with
  | there _ heq => rw [heq]
  | made cfg env₂ env' _ _ _ hchange => exact hchange.frame q hq

end DepsReady

section Deps

variable {cmd : Interpreter} {r : Path} {e : Env} {sh inner : Shell} {c : Option Token} {o : Str}

/-- The call of alibs.cmd inside abuild.cmd is a proper one. -/
theorem nested_invoked (h : Repository r e sh) (hinv : Invoked sh c [])
    (hcomplete : complete (loadedEnv cmd c sh)) (es : List Event)
    (hinner : inner = { sh with env := loadedEnv cmd c sh, log := sh.log ++ es }) :
    Repository r (loadedEnv cmd c sh) inner ∧ Invoked inner c [] ∧
      Reloaded (configLines sh (cfgArg c)) (loadedEnv cmd c sh)
        (alibsSettings cmd (argList c []) inner).env := by
  subst hinner
  have hinv' : Invoked { sh with env := loadedEnv cmd c sh, log := sh.log ++ es } c [] :=
    ⟨hinv.config, hinv.first, fun _ h => absurd rfl h, hinv.switches, hinv.unread⟩
  exact ⟨⟨h.cwd, rfl, h.home, h.libs, h.outs⟩, hinv',
    alibsSettings_again cmd sh hinv' rfl hcomplete fun v _ => rfl⟩

theorem needDeps_eq (cmd : Interpreter) (c : Option Token) (sh : Shell) :
    needDeps cmd (cfgArg c) sh =
      if sh.exist (sh.env.text "LIBAROMA_OUT" ++ "\\libadeps.a".toList) then sh
      else alibs cmd (argList c []) sh := by
  cases c with
  | none => rfl
  | some t =>
    rw [needDeps, cfgArg_some, if_neg t.nonempty]
    rfl

/-- **The dependencies** abuild.cmd finds or has made. -/
theorem needDeps_builds (h : Repository r e sh) (hinv : Invoked sh c [])
    (hcomplete : complete (loadedEnv cmd c sh)) (hout : OutNamed (loadedEnv cmd c sh) o)
    (es : List Event) (hinner : inner = { sh with env := loadedEnv cmd c sh, log := sh.log ++ es }) :
    ∃ d clock es₁ ls, needDeps cmd (cfgArg c) inner =
        { inner with disk := d, clock := clock, log := inner.log ++ es₁ } ∧
      sh.clock ≤ clock ∧ loads es₁ = ls ∧
      DepsReady (configLines sh (cfgArg c)) (loadedEnv cmd c sh) sh.disk d r o sh.clock ls ∧
      ∀ x ∈ ls, x.1 = resolve sh.cwd (configName (cfgArg c)) := by
  obtain ⟨hrepo, hinv', hagain⟩ := nested_invoked h hinv hcomplete es hinner
  have hsame := hagain.toSameBuild.trans (alibsEnv_sameBuild cmd (argList c []) inner)
  have hexist : inner.exist (inner.env.text "LIBAROMA_OUT" ++ "\\libadeps.a".toList) =
      (inner.disk.file (r ++ [o]) depsName).isSome := by
    have hfolder := hrepo.outs o (outFolderName_of_load hcomplete hout)
    rw [← hrepo.env] at hout
    rw [← hrepo.cwd] at hfolder ⊢
    exact exist_deps hout hfolder
  rw [needDeps_eq, hexist]
  subst hinner
  show ∃ d clock es₁ ls, (if (sh.disk.file (r ++ [o]) depsName).isSome then _ else _) = _ ∧ _
  cases hdeps : sh.disk.file (r ++ [o]) depsName with
  | some x =>
    refine ⟨sh.disk, sh.clock, [], [], ?_, le_rfl, rfl, .there (by rw [hdeps]; rfl) rfl, by simp⟩
    rw [Option.isSome_some, if_pos rfl, List.append_nil]
  | none =>
    obtain ⟨d, clock, es₁, hrun, hclock, hloads, hchange⟩ := alibs_builds cmd hrepo hinv'
      (by simp) hagain.complete (hagain.toSameBuild.outNamed hout)
    refine ⟨d, clock, es₁, _, ?_, hclock, hloads, .made _ _ _ hdeps hagain hsame ?_, ?_⟩
    · rw [Option.isSome_none, if_neg Bool.false_ne_true, hrun]
    · rw [targetLibs, List.map_nil, if_pos rfl, defaultLibs_eq, libsOf_names] at hchange
      exact hchange
    · intro x hx
      rw [List.mem_singleton.mp hx]

end Deps

/-- **A run of abuild.cmd** in a repository. -/
theorem abuild_builds (cmd : Interpreter) {r : Path} {e : Env} {sh : Shell} {c : Option Token}
    {o : Str} (h : Repository r e sh) (hinv : Invoked sh c [])
    (hcomplete : complete (loadedEnv cmd c sh)) (hout : OutNamed (loadedEnv cmd c sh) o) :
    ∃ d₁ d clock es ls, abuild cmd (cfgArg c) sh =
        { sh with disk := d, clock := clock + 1, log := sh.log ++ es } ∧
      sh.clock ≤ clock ∧
      loads es = (resolve sh.cwd (configName (cfgArg c)), loadedEnv cmd c sh) :: ls ∧
      DepsReady (configLines sh (cfgArg c)) (loadedEnv cmd c sh) sh.disk d₁ r o sh.clock ls ∧
      (∀ x ∈ ls, x.1 = resolve sh.cwd (configName (cfgArg c))) ∧
      AromaChange d₁ d r o ∧
      ((∀ s ∈ aromaSources cmd (loadedEnv cmd c sh) sh.sources,
          cleanObject (objectName s) = true) →
        Archived d₁ d (r ++ [o] ++ [aromaName]) (r ++ [o]) libaromaName
          (objects (aromaFlags (loadedEnv cmd c sh))
            (aromaSources cmd (loadedEnv cmd c sh) sh.sources) clock)) := by
  obtain ⟨es, hset, _, hloads⟩ := setldr_eq cmd (cfgArg c) sh
  set env := loadedEnv cmd c sh with henv
  set inner : Shell := { sh with env := env, log := sh.log ++ es } with hinner
  have hset' : setldr cmd (cfgArg c) sh = inner := hset
  have hcwd : sh.cwd = r := h.cwd
  have hfolder : OutFolder sh.disk (r ++ [o]) := h.outs o (outFolderName_of_load hcomplete hout)
  -- the dependencies first
  obtain ⟨d₁, clock, es₁, ls, hneed, hclock, hloads₁, hready, hcfg⟩ :=
    needDeps_builds h hinv hcomplete hout es hinner
  -- then libaroma
  set mid : Shell := { inner with disk := d₁, clock := clock, log := inner.log ++ es₁ } with hmid
  obtain ⟨hout₁, hdir₁⟩ := hready.outFolder hfolder
  have hfit : AromaFit d₁ r o := ⟨hdir₁, hout₁.aroma, hout₁.libaroma⟩
  have hfit' : AromaFit mid.disk mid.cwd o := by
    show AromaFit d₁ sh.cwd o
    rw [hcwd]
    exact hfit
  obtain ⟨d, hbuild, ⟨d₂, hd₂, hd⟩, harch⟩ := buildAroma_spec cmd mid hout hfit'
  have hmidcwd : mid.cwd = r := h.cwd
  rw [hmidcwd] at hd₂ hd harch
  refine ⟨d₁, d, clock, es ++ (es₁ ++ [.buildingLibaroma]), ls, ?_, hclock, ?_, hready, hcfg,
    aromaChange_of_build hfit hout₁ hd₂ hd, harch⟩
  · rw [abuild, hset', if_neg hcomplete.1, if_neg hcomplete.2, hneed, hbuild, leave]
    simp only [hmid, hinner, List.append_assoc, ite_self]
  · rw [loads, List.filterMap_append, List.filterMap_append, ← loads, ← loads, ← loads, hloads,
      hloads₁]
    show [(_, env)] ++ (ls ++ []) = _
    rw [List.append_nil]; rfl

end Atools
