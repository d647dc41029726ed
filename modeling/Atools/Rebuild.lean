import Atools.Dependencies
import Atools.Libaroma
import Atools.Outside

/-!
# Building again

alibs.cmd compiles what it is asked for with the current settings, whatever was there, and leaves the
other members of libadeps.a as they are (`alibs_archive`).  Nothing a script archives is ever taken
out again (`archives_grow`).  Building libaroma again and again from the same settings and sources is
building it once (`abuild_again`).
-/

namespace Atools

open Batch

/-! ### What alibs.cmd archives -/

/-- The members of the libadeps.a of the settings. -/
def libadepsOf (env : Env) (sh : Shell) : Members :=
  members sh.disk (resolve sh.cwd (env.text "LIBAROMA_OUT" ++ "\\libadeps.a".toList))

/-- The libraries a call of alibs.cmd is for. -/
def calledLibs (env : Env) (names : List Token) : List Lib :=
  libsOf (targetLibs env (names.map Token.text))

theorem mem_libWrites {env : Env} {ls : List Lib} {t : ℕ} {n : Str} {x : Obj}
    (h : (n, x) ∈ libWrites env t ls) : ∃ l ∈ ls, x.src ∈ l.sources env ∧
      objectName x.src = n ∧ x.flags = l.flags env ∧ t ≤ x.stamp := by
  induction ls generalizing t with
  | nil => exact absurd h List.not_mem_nil
  | cons l ls ih =>
    rw [libWrites] at h
    rcases List.mem_append.mp h with h | h
    · obtain ⟨s, hs, heq⟩ := List.mem_map.mp h
      rw [Prod.mk.injEq] at heq
      obtain ⟨rfl, rfl⟩ := heq
      exact ⟨l, List.mem_cons_self, hs, rfl, rfl, le_rfl⟩
    · obtain ⟨l', hl', hs, hn, hflags, hstamp⟩ := ih h
      exact ⟨l', List.mem_cons_of_mem l hl', hs, hn, hflags, by omega⟩

/-- Every source of every library is written. -/
theorem exists_libWrite {env : Env} {ls : List Lib} {l : Lib} {s : Str} (t : ℕ) (hl : l ∈ ls)
    (hs : s ∈ l.sources env) : ∃ x, lastWrite (objectName s) (libWrites env t ls) = some x ∧
      x.src = s ∧ x.flags = l.flags env ∧ t ≤ x.stamp := by
  have hmem : ∃ x, (objectName s, x) ∈ libWrites env t ls := by
    induction ls generalizing t with
    | nil => exact absurd hl List.not_mem_nil
    | cons l' ls ih =>
      rw [libWrites]
      rcases List.mem_cons.mp hl with rfl | hl
      · exact ⟨_, List.mem_append_left _ (List.mem_map.mpr ⟨s, hs, rfl⟩)⟩
      · obtain ⟨x, hx⟩ := ih (t + ticks env l') hl
        exact ⟨x, List.mem_append_right _ hx⟩
  obtain ⟨y, hy⟩ := hmem
  obtain ⟨x, hx⟩ := exists_lastWrite hy
  obtain ⟨l', _, hs', hname, hflags, hstamp⟩ := mem_libWrites (mem_of_lastWrite hx)
  have hsrc : x.src = s := objectName_inj (mem_allSources hs') (mem_allSources hs) hname
  rw [hsrc] at hs'
  obtain rfl : l' = l := Lib.eq_of_mem_sources hs' hs
  exact ⟨x, hx, hsrc, hflags, hstamp⟩

section Called

variable {cmd : Interpreter} {r : Path} {e : Env} {sh : Shell}

theorem DepsChange.members {d d' : Disk File} {o : Str} {ws : List (Str × Obj)}
    (h : DepsChange d d' r o ws) (m : Str) :
    (Atools.members d' (r ++ [o] ++ [depsName])).lookup m =
      (lastWrite m ws).or ((Atools.members d (r ++ [o] ++ [depsName])).lookup m) := by
  obtain ⟨a, ha, hlookup⟩ := h.archive
  rw [← hlookup m, Atools.members, Disk.fileAt_concat, ha]

/-- Every source of the libraries has an object of its own. -/
theorem DepsChange.source {d d' : Disk File} {o : Str} {env : Env} {t : ℕ} {ls : List Lib}
    (h : DepsChange d d' r o (libWrites env t ls)) {l : Lib} {s : Str} (hl : l ∈ ls)
    (hs : s ∈ l.sources env) :
    ∃ x, (Atools.members d' (r ++ [o] ++ [depsName])).lookup (objectName s) = some x ∧
      x.src = s ∧ x.flags = l.flags env ∧ t ≤ x.stamp := by
  obtain ⟨x, hx, hrest⟩ := exists_libWrite t hl hs
  refine ⟨x, ?_, hrest⟩
  rw [h.members, hx, Option.some_or]

/-- A member of no such name is what it was. -/
theorem DepsChange.other {d d' : Disk File} {o : Str} {env : Env} {t : ℕ} {ls : List Lib}
    (h : DepsChange d d' r o (libWrites env t ls)) {m : Str}
    (hm : ∀ l ∈ ls, ∀ s ∈ l.sources env, objectName s ≠ m) :
    (Atools.members d' (r ++ [o] ++ [depsName])).lookup m =
      (Atools.members d (r ++ [o] ++ [depsName])).lookup m := by
  have hnone : lastWrite m (libWrites env t ls) = none := by
    rw [lastWrite_eq_none_iff]
    rintro ⟨n, x⟩ hw hn
    obtain ⟨l, hl, hs, hname, _⟩ := mem_libWrites hw
    exact hm l hl x.src hs (hname.trans hn)
  rw [h.members, hnone, Option.none_or]

/-- **What alibs.cmd leaves** in the libadeps.a of its settings: an object of every source of every
library it was called for, compiled in this run with the current flags, and every other member as it
was.  The other out folders are as they were. -/
theorem alibs_archive {c : Option Token} {names : List Token} (h : Repository r e sh)
    (hfit : StepFits cmd (.alibs c names) sh) {env : Env}
    (henv : (alibsSettings cmd (argList c names) sh).env = env) (hcomplete : complete env)
    {sh' : Shell} (hrun : alibs cmd (argList c names) sh = sh') :
    (∀ l ∈ calledLibs env names, ∀ s ∈ l.sources env,
      ∃ x, (libadepsOf env sh').lookup (objectName s) = some x ∧ x.src = s ∧
        x.flags = l.flags env ∧ sh.clock ≤ x.stamp) ∧
    (∀ m, (∀ l ∈ calledLibs env names, ∀ s ∈ l.sources env, objectName s ≠ m) →
      (libadepsOf env sh').lookup m = (libadepsOf env sh).lookup m) ∧
    ∀ o, outFolder env ≠ some o → Unchanged sh.disk sh'.disk r o := by
  subst henv hrun
  obtain ⟨hinv, _, hnames, _, hfolder⟩ := hfit
  obtain ⟨o, hout⟩ := hfolder hcomplete
  obtain ⟨d, clock, es, heq, _, _, hchange⟩ := alibs_builds cmd h hinv hnames hcomplete hout
  set env := (alibsSettings cmd (argList c names) sh).env with henv
  have hsame := alibsEnv_sameBuild cmd (argList c names) sh
  have hpath : resolve sh.cwd (env.text "LIBAROMA_OUT" ++ "\\libadeps.a".toList) =
      r ++ [o] ++ [depsName] := by rw [resolve_libadeps hout, h.cwd]
  have hafter : libadepsOf env (alibs cmd (argList c names) sh) =
      members d (r ++ [o] ++ [depsName]) := by
    rw [heq, libadepsOf, ← hpath]
  have hbefore : libadepsOf env sh = members sh.disk (r ++ [o] ++ [depsName]) := by
    rw [libadepsOf, hpath]
  -- the loop runs with settings that build alike
  have hlibs : libsOf (targetLibs (alibsEnv cmd (argList c names) sh) (names.map Token.text)) =
      calledLibs env names := hsame.calledLibs _
  rw [hlibs] at hchange
  rw [hafter, hbefore]
  refine ⟨?_, ?_, ?_⟩
  · intro l hl s hs
    rw [← hsame.libSources] at hs
    rw [← hsame.libFlags]
    exact hchange.source hl hs
  · intro m hm
    refine hchange.other fun l hl s hs => ?_
    rw [hsame.libSources] at hs
    exact hm l hl s hs
  · intro o' ho'
    rw [heq]
    refine unchanged_of_frame hchange.frame ?_
    rintro rfl
    exact ho' (outFolder_of_named hout)

end Called

/-- A source of zlib. -/
def adlerSource : Str := "..\\..\\..\\zlib\\src\\adler32.c".toList

/-- `alibs.cmd zlib` compiles zlib. -/
theorem alibs_archive_zlib : ∃ x,
    (libadepsOf (alibsSettings (.idle true) (argList none [libToken .zlib]) smallRepository).env
      (alibs (.idle true) (argList none [libToken .zlib]) smallRepository)).lookup
        (objectName adlerSource) = some x ∧ x.src = adlerSource := by
  obtain ⟨hasked, _⟩ := alibs_archive smallRepository_fresh.repository zlibOnly_step rfl
    zlibOnly_settings.complete rfl
  obtain ⟨x, hx, hsrc, _⟩ := hasked .zlib (List.mem_singleton.mpr rfl) adlerSource (by decide)
  exact ⟨x, hx, hsrc⟩

/-! ### Nothing is taken out -/

/-- The members of an archive are still there, by name. -/
def Grows (d d' : Disk File) (p : Path) (n : Str) : Prop :=
  ∀ a, d.file p n = some (.archive a) → ∃ a', d'.file p n = some (.archive a') ∧
    ∀ m, (a.lookup m).isSome → (a'.lookup m).isSome

section Grows

variable {d d' d₁ d₂ : Disk File} {p : Path} {n : Str}

theorem Grows.of_eq (h : d'.file p n = d.file p n) : Grows d d' p n :=
  fun a ha => ⟨a, h.trans ha, fun _ hm => hm⟩

theorem Grows.trans (h : Grows d d₁ p n) (h' : Grows d₁ d₂ p n) : Grows d d₂ p n := by
  intro a ha
  obtain ⟨a₁, ha₁, hsub⟩ := h a ha
  obtain ⟨a₂, ha₂, hsub'⟩ := h' a₁ ha₁
  exact ⟨a₂, ha₂, fun m hm => hsub' m (hsub m hm)⟩

/-- Archiving takes nothing out. -/
theorem Grows.of_lookup {a' : Members} {ws : List (Str × Obj)} (ha' : d'.file p n = some (.archive a'))
    (hlookup : ∀ m, a'.lookup m = (lastWrite m ws).or ((members d (p ++ [n])).lookup m)) :
    Grows d d' p n := by
  intro a ha
  refine ⟨a', ha', fun m hm => ?_⟩
  have hold : members d (p ++ [n]) = a := by rw [members, Disk.fileAt_concat, ha]
  rw [hlookup, hold, Option.isSome_or, hm, Bool.or_true]

end Grows

section Growing

variable {cmd : Interpreter} {r : Path} {e : Env} {sh sh' : Shell} {a : Step}

theorem DepsReady.grows {lines : List Line} {env : Env} {d d' : Disk File} {o : Str} {t : ℕ}
    {ls : List (Path × Env)} (h : DepsReady lines env d d' r o t ls) :
    Grows d d' (r ++ [o]) depsName := by
  cases h with
  | there _ heq =>
    rw [heq]
    exact .of_eq rfl
  | made cfg env₂ env' _ _ _ hchange =>
    obtain ⟨a, ha, hlookup⟩ := hchange.archive
    exact .of_lookup ha hlookup

/-- No step takes a member out of an archive. -/
theorem Effect.grows (h : Repository r e sh)
    (hclean : ∀ c, a = .abuild c → CleanFiles (loadedEnv cmd c sh) sh.sources)
    (he : Effect cmd r sh a sh') {o : Str} (ho : outFolderName o) :
    Grows sh.disk sh'.disk (r ++ [o]) depsName ∧
      Grows sh.disk sh'.disk (r ++ [o]) libaromaName := by
  cases he with
  | alibsStopped | abuildStopped | fetched => exact ⟨.of_eq rfl, .of_eq rfl⟩
  | edited c lines n hn =>
    have hfile := fun m => (unchanged_of_edit sh.disk r hn ho (.text lines)).file List.prefix_rfl m
    exact ⟨.of_eq (hfile _), .of_eq (hfile _)⟩
  | alibsBuilt c names o' d clock es _ _ _ _ hchange =>
    by_cases heq : o = o'
    · subst heq
      obtain ⟨a, ha, hlookup⟩ := hchange.archive
      exact ⟨.of_lookup ha hlookup, .of_eq (hchange.files _ (by decide))⟩
    · have hfile := fun m => (unchanged_of_frame hchange.frame heq).file List.prefix_rfl m
      exact ⟨.of_eq (hfile _), .of_eq (hfile _)⟩
  | abuildBuilt c o' d₁ d clock es ls _ _ _ _ hready hchange harch =>
    by_cases heq : o = o'
    · subst heq
      obtain ⟨a, ha, hlookup⟩ := libaroma_built hready (h.outs o ho) (hclean c rfl) harch
      exact ⟨hready.grows.trans (.of_eq (hchange.files _ (by decide))), .of_lookup ha hlookup⟩
    · have hframe := fun q hq => (hchange.frame q hq).trans (hready.frame hq)
      have hfile := fun m => (unchanged_of_frame hframe heq).file List.prefix_rfl m
      exact ⟨.of_eq (hfile _), .of_eq (hfile _)⟩

theorem grows_of_run (h : Repository r e sh) {steps : List Step}
    (hfit : AllFit (runStep cmd) (CleanStepFits cmd) steps sh) {o : Str} (ho : outFolderName o) :
    Grows sh.disk (runs (runStep cmd) steps sh).disk (r ++ [o]) depsName ∧
      Grows sh.disk (runs (runStep cmd) steps sh).disk (r ++ [o]) libaromaName := by
  induction steps generalizing sh with
  | nil => exact ⟨.of_eq rfl, .of_eq rfl⟩
  | cons a as ih =>
    obtain ⟨hdeps, haroma⟩ := (runStep_effect h hfit.1.1).grows h hfit.1.2 ho
    obtain ⟨hdeps', haroma'⟩ := ih (h.step hfit.1.1) hfit.2
    exact ⟨hdeps.trans hdeps', haroma.trans haroma'⟩

theorem Grows.members {d d' : Disk File} {p : Path} {n m : Str} (h : Grows d d' p n)
    (hm : ((members d (p ++ [n])).lookup m).isSome) :
    ((Atools.members d' (p ++ [n])).lookup m).isSome := by
  rw [Atools.members, Disk.fileAt_concat] at hm ⊢
  cases hf : d.file p n with
  | none =>
    rw [hf] at hm
    exact absurd hm Bool.false_ne_true
  | some x =>
    rw [hf] at hm
    cases x with
    | archive a =>
      obtain ⟨a', ha', hsub⟩ := h a hf
      rw [ha']
      exact hsub m hm
    | text lines | object x | other => exact absurd hm Bool.false_ne_true

/-- **What is archived stays.**  Over every run, a name that an archive of an out folder has a member
of is the name of a member for good. -/
theorem archives_grow {steps : List Step} {o m n : Str} (h : Repository r e sh)
    (hfit : AllFit (runStep cmd) (CleanStepFits cmd) steps sh)
    (hrun : runs (runStep cmd) steps sh = sh') (ho : outFolderName o)
    (hn : n = depsName ∨ n = libaromaName)
    (hm : ((members sh.disk (r ++ [o] ++ [n])).lookup m).isSome) :
    ((members sh'.disk (r ++ [o] ++ [n])).lookup m).isSome := by
  obtain ⟨hdeps, haroma⟩ := grows_of_run h hfit ho
  rw [hrun] at hdeps haroma
  rcases hn with rfl | rfl
  · exact hdeps.members hm
  · exact haroma.members hm

end Growing

/-- In the small repository abuild.cmd meets clean names. -/
theorem smallRepository_clean : CleanFiles (loadedEnv (.idle true) none smallRepository) smallTree := by
  rw [CleanFiles]
  decide +kernel

theorem zlibOnly_clean : CleanStepFits (.idle true) (.abuild none) zlibOnly := by
  have hrepo := smallRepository_fresh.repository
  have heffect := runStep_effect hrepo zlibOnly_step
  obtain ⟨hfit, hloaded⟩ := smallRepository_fits.kept hrepo heffect fun c lines h => nomatch h
  have hsources : zlibOnly.sources = smallTree := heffect.sources fun t h => nomatch h
  refine ⟨hfit, fun c hc => ?_⟩
  obtain rfl : none = c := Step.abuild.inj hc
  rw [zlibOnly, hloaded, ← zlibOnly, hsources]
  exact smallRepository_clean

/-- After `alibs.cmd zlib` the archive has the object of a source of zlib. -/
theorem zlibOnly_member : ((members zlibOnly.disk (["atools".toList] ++ ["out-sdl_".toList] ++
    [depsName])).lookup (objectName adlerSource)).isSome := by
  obtain ⟨hinv, _, hnames, _⟩ := zlibOnly_step
  obtain ⟨d, clock, es, heq, _, _, hchange⟩ := alibs_builds (.idle true)
    smallRepository_fresh.repository hinv hnames zlibOnly_settings.complete zlibOnly_settings.out
  obtain ⟨x, hx, _⟩ := hchange.source (l := .zlib) (s := adlerSource)
    (List.mem_singleton.mpr rfl) (by decide)
  rw [zlibOnly, runStep, heq]
  exact Option.isSome_of_eq_some hx

/-- It still has it after `abuild.cmd`. -/
theorem archives_grow_zlib :
    ((members (runs (runStep (.idle true)) [.abuild none] zlibOnly).disk
      (["atools".toList] ++ ["out-sdl_".toList] ++ [depsName])).lookup
        (objectName adlerSource)).isSome := by
  have hfits : AllFit (runStep (.idle true)) (CleanStepFits (.idle true)) [.abuild none] zlibOnly :=
    ⟨zlibOnly_clean, trivial⟩
  exact archives_grow (smallRepository_fresh.repository.step zlibOnly_step) hfits rfl
    (by rw [outFolderName]; decide) (Or.inl rfl) zlibOnly_member

/-! ### Building libaroma again -/

/-- Archiving the same sources with the same flags once more changes no source and no flags. -/
theorem same_again {d₀ d₁ d₂ : Disk File} {p : Path} {n : Str} {a₁ a₂ : Members}
    {flags files : List Str} {t₁ t₂ : ℕ} (h₁ : d₁.file p n = some (.archive a₁))
    (hlookup₁ : ∀ m, a₁.lookup m =
      (lastWrite m (objects flags files t₁)).or ((members d₀ (p ++ [n])).lookup m))
    (h₂ : d₂.file p n = some (.archive a₂))
    (hlookup₂ : ∀ m, a₂.lookup m =
      (lastWrite m (objects flags files t₂)).or ((members d₁ (p ++ [n])).lookup m)) :
    SameArchive d₁ d₂ p n := by
  have hmembers : members d₁ (p ++ [n]) = a₁ := by rw [members, Disk.fileAt_concat, h₁]
  have hmembers' : members d₂ (p ++ [n]) = a₂ := by rw [members, Disk.fileAt_concat, h₂]
  have hpairs : ∀ m t, (lastWrite m (objects flags files t)).map (fun x => (x.src, x.flags)) =
      lastWrite m (files.map fun s => (objectName s, (s, flags))) := by
    intro m t
    rw [← lastWrite_map m (fun x : Obj => (x.src, x.flags)), objects, List.map_map]
    rfl
  refine ⟨by rw [h₁, h₂]; rfl, fun m => ?_⟩
  rw [hmembers', hlookup₂, hmembers]
  cases hw : lastWrite m (objects flags files t₂) with
  | none => rw [Option.none_or]
  | some x =>
    -- what the second build writes the first one has written
    have hsame := (hpairs m t₁).trans (hpairs m t₂).symm
    rw [hw, Option.map_some] at hsame
    obtain ⟨y, hy, heq⟩ := Option.map_eq_some_iff.mp hsame
    rw [hlookup₁, hy, Option.some_or, Option.some_or, Option.map_some, Option.map_some, heq]

/-- One build of libaroma into the out folder `o`, after which there are dependencies. -/
structure AromaBuilt (d d' : Disk File) (r : Path) (o : Str) (flags files : List Str) : Prop where
  deps : (d'.file (r ++ [o]) depsName).isSome
  depsKept : (d.file (r ++ [o]) depsName).isSome →
    d'.file (r ++ [o]) depsName = d.file (r ++ [o]) depsName
  archive : ∃ a t, d'.file (r ++ [o]) libaromaName = some (.archive a) ∧
    ∀ m, a.lookup m = (lastWrite m (objects flags files t)).or
      ((members d (r ++ [o] ++ [libaromaName])).lookup m)
  others : ∀ o', o' ≠ o → Unchanged d d' r o'

section Again

variable {cmd : Interpreter} {r : Path} {e : Env} {sh : Shell} {c : Option Token}

theorem abuild_built {o : Str} (h : Repository r e sh) (hfit : CleanStepFits cmd (.abuild c) sh)
    (hcomplete : complete (loadedEnv cmd c sh)) (hout : OutNamed (loadedEnv cmd c sh) o) :
    AromaBuilt sh.disk (runStep cmd (.abuild c) sh).disk r o (aromaFlags (loadedEnv cmd c sh))
      (aromaFiles (loadedEnv cmd c sh) sh.sources) := by
  obtain ⟨d₁, d, clock, es, ls, heq, _, _, hready, _, hchange, harch⟩ :=
    abuild_builds cmd h hfit.1.1 hcomplete hout
  have ho := outFolderName_of_load hcomplete hout
  obtain ⟨a, ha, hlookup⟩ := libaroma_built hready (h.outs o ho) (hfit.2 c rfl) harch
  have hdeps : d.file (r ++ [o]) depsName = d₁.file (r ++ [o]) depsName :=
    hchange.files _ (by decide)
  rw [runStep, heq]
  refine ⟨?_, fun hsome => ?_, ⟨a, clock, ha, hlookup⟩, fun o' hne => ?_⟩
  · rw [hdeps]
    exact hready.isSome
  · rw [hdeps, hready.kept hsome]
  · exact unchanged_of_frame (fun q hq => (hchange.frame q hq).trans (hready.frame hq)) hne

/-- What abuild.cmd comes to once it has run. -/
theorem abuild_kept (h : Repository r e sh) (hfit : CleanStepFits cmd (.abuild c) sh)
    (hhere : ConfigHere c) :
    loadedEnv cmd c (runStep cmd (.abuild c) sh) = loadedEnv cmd c sh ∧
      (runStep cmd (.abuild c) sh).sources = sh.sources ∧
      CleanStepFits cmd (.abuild c) (runStep cmd (.abuild c) sh) := by
  have heffect := runStep_effect h hfit.1
  have hsame := heffect.sameOutside fun c lines h => nomatch h
  have hsources := heffect.sources fun t h => nomatch h
  obtain ⟨n, hn⟩ := hhere
  have hloaded : loadedEnv cmd c (runStep cmd (.abuild c) sh) = loadedEnv cmd c sh :=
    hsame.loadedEnv h.cwd hn id
  refine ⟨hloaded, hsources, hsame.stepFits h.cwd ⟨n, hn⟩ hfit.1, fun c' hc' => ?_⟩
  obtain rfl : c = c' := Step.abuild.inj hc'
  rw [hloaded, hsources]
  exact hfit.2 c rfl

/-- abuild.cmd once more. -/
theorem abuild_twice (h : Repository r e sh) (hfit : CleanStepFits cmd (.abuild c) sh)
    (hhere : ConfigHere c) (hcomplete : complete (loadedEnv cmd c sh)) (o : Str) :
    (runStep cmd (.abuild c) (runStep cmd (.abuild c) sh)).disk.file (r ++ [o]) depsName =
      (runStep cmd (.abuild c) sh).disk.file (r ++ [o]) depsName ∧
    SameArchive (runStep cmd (.abuild c) sh).disk
      (runStep cmd (.abuild c) (runStep cmd (.abuild c) sh)).disk (r ++ [o]) libaromaName := by
  obtain ⟨hloaded, hsources, hfit'⟩ := abuild_kept h hfit hhere
  obtain ⟨o', hout⟩ := hfit.1.2.2 hcomplete
  have hfirst := abuild_built h hfit hcomplete hout
  have hsecond := abuild_built (c := c) (o := o') (h.step hfit.1) hfit' (by rw [hloaded]; exact hcomplete)
    (by rw [hloaded]; exact hout)
  rw [hloaded, hsources] at hsecond
  by_cases heq : o = o'
  · subst heq
    obtain ⟨a₁, t₁, h₁, hlookup₁⟩ := hfirst.archive
    obtain ⟨a₂, t₂, h₂, hlookup₂⟩ := hsecond.archive
    exact ⟨hsecond.depsKept hfirst.deps, same_again h₁ hlookup₁ h₂ hlookup₂⟩
  · have hfile := fun n => (hsecond.others o heq).file List.prefix_rfl n
    exact ⟨hfile _, .of_eq (hfile _)⟩

/-- **Building again.**  However often abuild.cmd is run over the same settings and sources, libadeps.a
is left alone, and libaroma.a holds the sources it holds after the first run, with the same flags. -/
theorem abuild_again (h : Repository r e sh) (hfit : CleanStepFits cmd (.abuild c) sh)
    (hhere : ConfigHere c) (hcomplete : complete (loadedEnv cmd c sh)) (o : Str) (k : ℕ) :
    (runs (runStep cmd) (List.replicate (k + 1) (.abuild c)) sh).disk.file (r ++ [o]) depsName =
      (runStep cmd (.abuild c) sh).disk.file (r ++ [o]) depsName ∧
    SameArchive (runStep cmd (.abuild c) sh).disk
      (runs (runStep cmd) (List.replicate (k + 1) (.abuild c)) sh).disk (r ++ [o]) libaromaName := by
  induction k generalizing sh with
  | zero => exact ⟨rfl, .of_eq rfl⟩
  | succ k ih =>
    obtain ⟨hloaded, _, hfit'⟩ := abuild_kept h hfit hhere
    obtain ⟨hdeps, haroma⟩ := abuild_twice h hfit hhere hcomplete o
    obtain ⟨hdeps', haroma'⟩ := ih (h.step hfit.1) hfit' (by rw [hloaded]; exact hcomplete)
    rw [List.replicate_succ, runs]
    exact ⟨hdeps'.trans hdeps, haroma.trans haroma'⟩

end Again

/-- Three builds of the small repository. -/
theorem abuild_again_small :
    SameArchive (runStep (.idle true) (.abuild none) smallRepository).disk
      (runs (runStep (.idle true)) (List.replicate 3 (.abuild none)) smallRepository).disk
      (["atools".toList] ++ ["out-sdl_".toList]) libaromaName := by
  have hclean : CleanStepFits (.idle true) (.abuild none) smallRepository := by
    refine ⟨smallRepository_fits, fun c hc => ?_⟩
    obtain rfl : none = c := Step.abuild.inj hc
    exact smallRepository_clean
  exact (abuild_again smallRepository_fresh.repository hclean ⟨"config.txt".toList, by decide⟩
    smallRepository_settings.1 "out-sdl_".toList 2).2

end Atools
