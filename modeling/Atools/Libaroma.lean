import Atools.Record

/-!
# The archive of libaroma over a run

abuild.cmd compiles the sources of ten folders into one object folder, which it empties first, and
adds the objects to libaroma.a, which it does not.  `aromaFiles` are the files the settings select;
`noteAroma` records what every run has archived.  The archive holds exactly one object for each file
when no two files share an object name and nothing recorded goes by a name that no file has now
(`holdsExactly_iff`).
-/

namespace Atools

open Batch

/-! ### The files the settings select -/

/-- The `.c` files of a folder. -/
def folderFiles (t : SourceTree) (folder : Str) : List Str :=
  (cFiles t folder).map fun n => folder ++ '\\' :: n

/-- All files abuild.cmd is to compile. -/
def aromaFiles (env : Env) (t : SourceTree) : List Str :=
  folderFiles t (platFolder env) ++ debugSources env ++ (listedFolders env).flatMap (folderFiles t)

theorem sourceFolder_congr {env env' : Env} (h : SameSettings env env') (folder : Str) :
    sourceFolder env' folder = sourceFolder env folder := by
  rw [sourceFolder, sourceFolder, h.text (by decide)]

theorem platFolder_congr {env env' : Env} (h : SameSettings env env') :
    platFolder env' = platFolder env := by
  rw [platFolder, platFolder, sourceFolder_congr h, sourcePlatform, sourcePlatform,
    isSet_congr (h _ (by decide)), h.text (by decide)]

/-- The files depend on the settings only. -/
theorem aromaFiles_congr {env env' : Env} (h : SameSettings env env') (t : SourceTree) :
    aromaFiles env' t = aromaFiles env t := by
  have hset : ∀ v x : Str, settingVar v = true → isSet env' v x = isSet env v x :=
    fun v x hv => isSet_congr (h v hv) x
  rw [aromaFiles, aromaFiles, platFolder_congr h, debugSources, debugSources, listedFolders,
    listedFolders]
  simp only [sourceFolder_congr h, hset "LIBAROMA_MEMDEBUG" _ (by decide),
    hset "LIBAROMA_ZIP" _ (by decide)]

/-- So do the flags, but for the generic ones. -/
theorem aromaFlags_congr {env env' : Env} (h : SameSettings env env')
    (hflags : env'.text "LA_GENERIC_CFLAGS" = env.text "LA_GENERIC_CFLAGS") :
    aromaFlags env' = aromaFlags env := by
  have hset : ∀ v x : Str, settingVar v = true → isSet env' v x = isSet env v x :=
    fun v x hv => isSet_congr (h v hv) x
  rw [aromaFlags, aromaFlags, hflags, h _ (show settingVar _ = true by decide), platFolder_congr h]
  simp only [sourceFolder_congr h, flagFor]
  rw [hset "LIBAROMA_PLATFORM" _ (by decide), hset "LIBAROMA_PLATFORM" _ (by decide),
    hset "LIBAROMA_SVG" _ (by decide), hset "LIBAROMA_ZIP" _ (by decide),
    hset "LIBAROMA_JPEG" _ (by decide), hset "LIBAROMA_DRM" _ (by decide),
    hset "LIBAROMA_OPENMP" _ (by decide), hset "LIBAROMA_HARFBUZZ" _ (by decide),
    hset "LIBAROMA_DEBUG" _ (by decide), hset "LIBAROMA_MEMDEBUG" _ (by decide),
    hset "LIBAROMA_LOGLEVEL" _ (by decide), hset "LIBAROMA_LOGFILE" _ (by decide),
    hset "LIBAROMA_BUILDINFO" _ (by decide),
    h.text (show settingVar "LIBAROMA_LOGLEVEL".toList = true by decide),
    h.text (show settingVar "LIBAROMA_LOGFILE".toList = true by decide)]

/-- All of them have names that reach the archiver as they are. -/
def CleanFiles (env : Env) (t : SourceTree) : Prop :=
  ∀ s ∈ aromaFiles env t, cleanObject (objectName s) = true

theorem toLower_eq_dot {c : Char} (h : c.toLower = '.') : c = '.' :=
  eq_of_toLower_eq h (Or.inl (by decide))

/-- A listed file is a name followed by `.c` in small or capital letters; the name goes into the name of
the object, and where there is none, the whole does. -/
theorem exists_stem {t : SourceTree} {folder n : Str} (hn : n ∈ cFiles t folder) :
    ∃ m b u, n = m ++ ['.', b] ∧ b.toLower = 'c' ∧ objectName n = fold (m ++ u) ++ ".o".toList := by
  obtain ⟨hfile, hsuffix⟩ := List.mem_filter.mp hn
  obtain ⟨u, hu⟩ := List.isSuffixOf_iff_suffix.mp hsuffix
  obtain ⟨m, l, rfl, _, hl⟩ := List.map_eq_append_iff.mp hu.symm
  have hlen : l.length = 2 := by
    rw [← List.length_map Char.toLower, hl]; rfl
  obtain ⟨a, b, rfl⟩ := List.length_eq_two.mp hlen
  have hab : a.toLower = '.' ∧ b.toLower = 'c' := by
    have heq : [a.toLower, b.toLower] = ['.', 'c'] := hl
    rw [List.cons.injEq, List.cons.injEq] at heq
    exact ⟨heq.1, heq.2.1⟩
  obtain rfl := toLower_eq_dot hab.1
  have hb : b ≠ '.' := by
    rintro rfl
    exact absurd hab.2 (by decide)
  have hbase : baseName (m ++ ['.', b]) = m ++ ['.', b] := by
    rw [baseName, List.rtakeWhile_eq_self_iff]
    exact List.all_eq_true.mp (t.plain folder _ hfile)
  have hdrop : dropExtension (m ++ ['.', b]) = m := by
    have hsplit : m ++ ['.', b] = m ++ ['.'] ++ [b] := by rw [List.append_assoc]; rfl
    rw [dropExtension, if_pos (by simp), hsplit, List.rdropWhile_concat_pos _ _ _ (by simpa using hb),
      List.rdropWhile_concat_neg _ _ _ (by decide), List.dropLast_concat]
  rw [objectName, hbase, dropSuffix]
  cases m with
  | nil =>
    refine ⟨[], b, ['.', b], rfl, hab.2, ?_⟩
    rw [if_neg (by simpa using hb.symm)]
  | cons c cs =>
    refine ⟨c :: cs, b, [], rfl, hab.2, ?_⟩
    rw [if_pos (by simp), hdrop, List.append_nil]

/-- A character that stays as it is in an object name is in it. -/
theorem not_mem_of_clean {m u : Str} {c : Char}
    (h : cleanObject (fold (m ++ u) ++ ".o".toList) = true)
    (hc : (blank c || actsBare c) = true) (hlower : c.toLower = c) : c ∉ m := by
  intro hm
  simp only [cleanObject, Bool.and_eq_true, List.all_eq_true, Bool.not_eq_true'] at h
  have hmem : c ∈ fold (m ++ u) ++ ".o".toList :=
    List.mem_append_left _ (List.mem_map.mpr ⟨c, List.mem_append_left u hm, hlower⟩)
  rw [h.2 c hmem] at hc
  exact Bool.false_ne_true hc

/-- A listed file with a clean object name is collected as it is. -/
theorem listedName_of_cFile (cmd : Interpreter) {t : SourceTree} {folder n : Str}
    (hn : n ∈ cFiles t folder) (h : cleanObject (objectName n) = true) :
    listedName cmd actsQuoted n = some n := by
  obtain ⟨m, b, u, rfl, hb, hobject⟩ := exists_stem hn
  rw [hobject] at h
  have hacts : (m ++ ['.', b]).any actsQuoted = false := by
    rw [List.any_eq_false]
    intro c hc hacts
    have hcases : c = '%' ∨ c = '!' ∨ c = '^' := by simpa [actsQuoted] using hacts
    rcases List.mem_append.mp hc with hc | hc
    · rcases hcases with rfl | rfl | rfl
      · exact not_mem_of_clean h (by decide) (by decide) hc
      · exact not_mem_of_clean h (by decide) (by decide) hc
      · exact not_mem_of_clean h (by decide) (by decide) hc
    · rcases List.mem_cons.mp hc with rfl | hc
      · exact absurd hcases (by decide)
      · obtain rfl := List.mem_singleton.mp hc
        rcases hcases with rfl | rfl | rfl
        · exact absurd hb (by decide)
        · exact absurd hb (by decide)
        · exact absurd hb (by decide)
  cases m with
  | nil =>
    rw [List.nil_append] at hacts ⊢
    rw [listedName, if_neg (by simp), show ['.', b].dropWhile blank = ['.', b] from rfl]
    simp only [hacts, Bool.false_eq_true, if_false]
  | cons c cs =>
    have hhead : c ≠ ';' := by
      rintro rfl
      simp only [cleanObject, Bool.and_eq_true, bne_iff_ne, ne_eq] at h
      exact h.1.2 rfl
    have hblank : blank c = false := by
      rw [← Bool.not_eq_true]
      intro hb
      have hcases : c = ' ' ∨ c = '\t' := by simpa [blank] using hb
      rcases hcases with rfl | rfl
      · exact not_mem_of_clean h (by decide) (by decide) List.mem_cons_self
      · exact not_mem_of_clean h (by decide) (by decide) List.mem_cons_self
    rw [List.cons_append] at hacts ⊢
    rw [listedName, if_neg (by simpa using hhead), List.dropWhile_cons_of_neg (by simpa using hblank)]
    simp only [hacts, Bool.false_eq_true, if_false]

theorem listSources_of_clean (cmd : Interpreter) {t : SourceTree} {folder : Str}
    (h : ∀ s ∈ folderFiles t folder, cleanObject (objectName s) = true) :
    listSources cmd t folder = folderFiles t folder := by
  rw [listSources, folderFiles, ← List.filterMap_eq_map]
  apply List.filterMap_congr
  intro n hn
  have hclean := h _ (List.mem_map.mpr ⟨n, hn, rfl⟩)
  rw [objectName_append] at hclean
  rw [listedName_of_cFile cmd hn hclean]
  rfl

/-- **What is compiled** are the files the settings select. -/
theorem aromaSources_of_clean (cmd : Interpreter) {env : Env} {t : SourceTree}
    (h : CleanFiles env t) : aromaSources cmd env t = aromaFiles env t := by
  have hplat : listSources cmd t (platFolder env) = folderFiles t (platFolder env) := by
    apply listSources_of_clean
    intro s hs
    exact h s (List.mem_append_left _ (List.mem_append_left _ hs))
  have hlisted : (listedFolders env).flatMap (listSources cmd t) =
      (listedFolders env).flatMap (folderFiles t) := by
    apply List.flatMap_congr
    intro folder hfolder
    apply listSources_of_clean
    intro s hs
    exact h s (List.mem_append_right _ (List.mem_flatMap.mpr ⟨folder, hfolder, hs⟩))
  rw [aromaSources, aromaFiles, hplat, hlisted]

/-! ### Exactly one object for each file -/

/-- An archive has one member for each file, all of them compiled since `t`, and no other. -/
structure HoldsExactly (a : Members) (files : List Str) (t : ℕ) : Prop where
  one : ∀ s ∈ files, ∃! n, ∃ x, a.lookup n = some x ∧ x.src = s
  fresh : ∀ n x, a.lookup n = some x → x.src ∈ files ∧ t ≤ x.stamp

/-- The libaroma.a of the settings. -/
def libaromaOf (env : Env) (sh : Shell) : Members :=
  members sh.disk (resolve sh.cwd (env.text "LIBAROMA_OUT" ++ "\\libaroma.a".toList))

/-- No two files share an object name. -/
def DistinctObjects (files : List Str) : Prop :=
  ∀ s ∈ files, ∀ s' ∈ files, objectName s = objectName s' → s = s'

/-- Whatever is recorded goes by the object name of a file. -/
def Replaced (files : List Str) (xs : List (Str × List Str)) : Prop :=
  ∀ x ∈ xs, ∃ s ∈ files, objectName s = objectName x.1

theorem of_lastWrite_objects {flags files : List Str} {t : ℕ} {n : Str} {x : Obj}
    (h : lastWrite n (objects flags files t) = some x) :
    x.src ∈ files ∧ objectName x.src = n ∧ x.stamp = t := by
  obtain ⟨s, hs, heq⟩ := List.mem_map.mp (mem_of_lastWrite h)
  rw [Prod.mk.injEq] at heq
  obtain ⟨rfl, rfl⟩ := heq
  exact ⟨hs, rfl, rfl⟩

section Exactly

variable {a old : Members} {flags files : List Str} {t : ℕ} {xs : List (Str × List Str)}

/-- Members go by the object names of their sources. -/
theorem objectName_of_lookup
    (ha : ∀ m, a.lookup m = (lastWrite m (objects flags files t)).or (old.lookup m))
    (hold : ∀ m, (old.lookup m).map (fun x => (x.src, x.flags)) =
      lastWrite m (xs.map fun x => (objectName x.1, x))) {n : Str} {x : Obj}
    (hx : a.lookup n = some x) : objectName x.src = n := by
  rw [ha] at hx
  cases hl : lastWrite n (objects flags files t) with
  | some y =>
    rw [hl, Option.some_or, Option.some.injEq] at hx
    rw [← hx]
    exact (of_lastWrite_objects hl).2.1
  | none =>
    rw [hl, Option.none_or] at hx
    have hrec := hold n
    rw [hx, Option.map_some] at hrec
    obtain ⟨y, _, heq⟩ := List.mem_map.mp (mem_of_lastWrite hrec.symm)
    rw [Prod.mk.injEq] at heq
    rw [← heq.1, heq.2]

/-- **When an archive holds exactly its files.** -/
theorem holdsExactly_iff {t₀ : ℕ} (ht : t₀ ≤ t)
    (ha : ∀ m, a.lookup m = (lastWrite m (objects flags files t)).or (old.lookup m))
    (hold : ∀ m, (old.lookup m).map (fun x => (x.src, x.flags)) =
      lastWrite m (xs.map fun x => (objectName x.1, x))) :
    HoldsExactly a files t₀ ↔ DistinctObjects files ∧ Replaced files xs := by
  have hname : ∀ {n x}, a.lookup n = some x → objectName x.src = n :=
    fun hx => objectName_of_lookup ha hold hx
  constructor
  · intro h
    refine ⟨?_, ?_⟩
    · intro s hs s' hs' heq
      obtain ⟨n, ⟨x, hx, rfl⟩, _⟩ := h.one s hs
      obtain ⟨n', ⟨x', hx', rfl⟩, _⟩ := h.one s' hs'
      have hn : n = n' := (hname hx).symm.trans (heq.trans (hname hx'))
      rw [hn, hx', Option.some.injEq] at hx
      rw [hx]
    · intro x hx
      obtain ⟨y, hy⟩ := exists_lastWrite (k := objectName x.1)
        (List.mem_map.mpr ⟨x, hx, rfl⟩ : (objectName x.1, x) ∈ xs.map fun x => (objectName x.1, x))
      obtain ⟨z, hz, _⟩ := Option.map_eq_some_iff.mp ((hold (objectName x.1)).trans hy)
      have hsome : (a.lookup (objectName x.1)).isSome := by
        rw [ha, hz, Option.isSome_or, Option.isSome_some, Bool.or_true]
      obtain ⟨w, hw⟩ := Option.isSome_iff_exists.mp hsome
      exact ⟨w.src, (h.fresh _ w hw).1, hname hw⟩
  · rintro ⟨hdistinct, hreplaced⟩
    have hlast : ∀ s ∈ files, ∃ x, lastWrite (objectName s) (objects flags files t) = some x :=
      fun s hs => exists_lastWrite (List.mem_map.mpr ⟨s, hs, rfl⟩)
    refine ⟨?_, ?_⟩
    · intro s hs
      obtain ⟨x, hx⟩ := hlast s hs
      obtain ⟨hfile, heq, _⟩ := of_lastWrite_objects hx
      refine ⟨objectName s, ⟨x, ?_, hdistinct _ hfile _ hs heq⟩, ?_⟩
      · rw [ha, hx, Option.some_or]
      · rintro n ⟨y, hy, rfl⟩
        exact (hname hy).symm
    · intro n x hx
      rw [ha] at hx
      cases hl : lastWrite n (objects flags files t) with
      | some y =>
        rw [hl, Option.some_or, Option.some.injEq] at hx
        obtain ⟨hfile, _, hstamp⟩ := of_lastWrite_objects hl
        rw [← hx, hstamp]
        exact ⟨hfile, ht⟩
      | none =>
        -- an old member goes by the name of a file, so it has been replaced
        exfalso
        rw [hl, Option.none_or] at hx
        have hrec := hold n
        rw [hx, Option.map_some] at hrec
        obtain ⟨y, hy, heq⟩ := List.mem_map.mp (mem_of_lastWrite hrec.symm)
        obtain ⟨s, hs, hsame⟩ := hreplaced y hy
        obtain ⟨z, hz⟩ := hlast s hs
        have hn : objectName y.1 = n := (Prod.ext_iff.mp heq).1
        rw [hsame, hn, hl] at hz
        exact absurd hz (Option.some_ne_none z).symm

end Exactly

/-! ### The record -/

/-- What a step archives in libaroma.a. -/
def noteAroma (cmd : Interpreter) : Step → Shell → Archives → Archives
  | .abuild c, sh, g =>
    let env := loadedEnv cmd c sh
    noteOut env (fun xs => xs.getD [] ++
      (aromaFiles env sh.sources).map fun s => (s, aromaFlags env)) g
  | .alibs _ _, _, g => g
  | .edit _ _, _, g => g
  | .fetch _, _, g => g

/-- A fitting step, in which abuild.cmd finds clean names only. -/
def CleanStepFits (cmd : Interpreter) (a : Step) (sh : Shell) : Prop :=
  StepFits cmd a sh ∧ ∀ c, a = .abuild c → CleanFiles (loadedEnv cmd c sh) sh.sources

theorem DepsReady.file_ne {lines : List Line} {env : Env} {d d' : Disk File} {r : Path} {o : Str}
    {t : ℕ} {ls : List (Path × Env)} (h : DepsReady lines env d d' r o t ls) {n : Str}
    (hn : n ≠ depsName) : d'.file (r ++ [o]) n = d.file (r ++ [o]) n := by
  cases h with
  | there _ heq => rw [heq]
  | made cfg env₂ env' _ _ _ hchange => exact hchange.files n hn

variable {cmd : Interpreter} {r : Path} {e : Env} {sh sh' : Shell} {g : Archives} {a : Step}

/-- The archive of libaroma after a build, next to what it was. -/
theorem libaroma_built {o : Str} {d d₁ d' : Disk File} {env : Env} {t : SourceTree} {clock : ℕ}
    {t₀ : ℕ} {lines : List Line} {ls : List (Path × Env)}
    (hready : DepsReady lines env d d₁ r o t₀ ls) (hout : OutFolder d (r ++ [o]))
    (hclean : CleanFiles env t)
    (harch : (∀ s ∈ aromaSources cmd env t, cleanObject (objectName s) = true) →
      Archived d₁ d' (r ++ [o] ++ [aromaName]) (r ++ [o]) libaromaName
        (objects (aromaFlags env) (aromaSources cmd env t) clock)) :
    ∃ a, d'.file (r ++ [o]) libaromaName = some (.archive a) ∧
      ∀ m, a.lookup m = (lastWrite m (objects (aromaFlags env) (aromaFiles env t) clock)).or
        ((members d (r ++ [o] ++ [libaromaName])).lookup m) := by
  rw [aromaSources_of_clean cmd hclean] at harch
  obtain ⟨a, ha, hlookup⟩ := (harch hclean).file_archive (hready.outFolder hout).2
  have hold : members d₁ (r ++ [o] ++ [libaromaName]) = members d (r ++ [o] ++ [libaromaName]) := by
    rw [members, members, Disk.fileAt_concat, Disk.fileAt_concat, hready.file_ne (by decide)]
  rw [hold] at hlookup
  exact ⟨a, ha, hlookup⟩

theorem aromaHolds_effect (hrepo : Repository r e sh)
    (h : ∀ o, outFolderName o → ArchiveHolds sh.disk (r ++ [o]) libaromaName (g o))
    (hclean : ∀ c, a = .abuild c → CleanFiles (loadedEnv cmd c sh) sh.sources)
    (he : Effect cmd r sh a sh') :
    ∀ o, outFolderName o → ArchiveHolds sh'.disk (r ++ [o]) libaromaName
      (noteAroma cmd a sh g o) := by
  cases he with
  | alibsStopped c names es _ => exact h
  | fetched t => exact h
  | abuildStopped c es hstop =>
    rw [noteAroma, noteOut_incomplete _ _ hstop]
    exact h
  | edited c lines n hn =>
    intro o ho
    exact (h o ho).congr ((unchanged_of_edit _ _ hn ho _).file List.prefix_rfl _)
  | alibsBuilt c names o d clock es _ _ _ _ hchange =>
    intro o' ho'
    refine (h o' ho').congr ?_
    by_cases heq : o' = o
    · rw [heq]
      exact hchange.files _ (by decide)
    · exact (unchanged_of_frame hchange.frame heq).file List.prefix_rfl _
  | abuildBuilt c o d₁ d clock es ls hcomplete hout ho _ hready hchange harch =>
    obtain ⟨a, ha, hlookup⟩ :=
      libaroma_built hready (hrepo.outs o ho) (hclean c rfl) harch
    rw [noteAroma]
    refine holds_noteOut h hout hcomplete
      (fun q hq => (hchange.frame q hq).trans (hready.frame hq)) ?_
    refine (h o ho).extend ha hlookup ?_
    rw [objects, List.map_map, List.map_map]
    rfl

/-- The repository and the record of its archives of libaroma. -/
def AromaRecorded (r : Path) (e : Env) (sh : Shell) (g : Archives) : Prop :=
  Repository r e sh ∧
    ∀ o, outFolderName o → ArchiveHolds sh.disk (r ++ [o]) libaromaName (g o)

/-- **The archives of libaroma over a run** agree with the record. -/
theorem aromaRecorded_of_run (h : Fresh r e sh) {steps : List Step}
    (hfit : AllFit (runStep cmd) (CleanStepFits cmd) steps sh) :
    AromaRecorded r e (runs (runStep cmd) steps sh)
      (records (runStep cmd) (noteAroma cmd) steps sh noArchives) := by
  have hstep : ∀ a sh g, AromaRecorded r e sh g → CleanStepFits cmd a sh →
      AromaRecorded r e (runStep cmd a sh) (noteAroma cmd a sh g) := by
    rintro a sh g ⟨hrepo, hholds⟩ ⟨hfits, hclean⟩
    exact ⟨hrepo.step hfits, aromaHolds_effect hrepo hholds hclean (runStep_effect hrepo hfits)⟩
  exact related_of_run (P := AromaRecorded r e) hstep
    ⟨h.repository, fun o ho => h.file ho libaromaName⟩ hfit

/-- **What abuild.cmd leaves** in libaroma.a, from any recorded state. -/
theorem abuild_holdsExactly {c : Option Token} (hrec : AromaRecorded r e sh g)
    (hfit : CleanStepFits cmd (.abuild c) sh) (hcomplete : complete (loadedEnv cmd c sh)) :
    HoldsExactly (libaromaOf (loadedEnv cmd c sh) (abuild cmd (cfgArg c) sh))
        (aromaFiles (loadedEnv cmd c sh) sh.sources) sh.clock ↔
      DistinctObjects (aromaFiles (loadedEnv cmd c sh) sh.sources) ∧
      ∀ o ∈ outFolder (loadedEnv cmd c sh), ∀ xs ∈ g o,
        Replaced (aromaFiles (loadedEnv cmd c sh) sh.sources) xs := by
  obtain ⟨hrepo, hholds⟩ := hrec
  obtain ⟨o, hout⟩ := hfit.1.2.2 hcomplete
  have ho := outFolderName_of_load hcomplete hout
  obtain ⟨d₁, d, clock, es, ls, heq, hclock, _, hready, _, _, harch⟩ :=
    abuild_builds cmd hrepo hfit.1.1 hcomplete hout
  obtain ⟨a, ha, hlookup⟩ := libaroma_built hready (hrepo.outs o ho) (hfit.2 c rfl) harch
  have hmembers : libaromaOf (loadedEnv cmd c sh) (abuild cmd (cfgArg c) sh) = a := by
    rw [heq, libaromaOf]
    show members d (resolve sh.cwd _) = a
    rw [resolve_libaroma hout, hrepo.cwd, members, Disk.fileAt_concat, ha]
  rw [hmembers, holdsExactly_iff hclock hlookup (hholds o ho).members, ← getD_iff_forall hout g]
  intro x hx
  exact absurd hx List.not_mem_nil

/-- **libaroma.a over every run.**  Right after abuild.cmd it holds exactly one fresh object for each
file the settings select exactly when no two of the files share an object name and everything that
earlier runs have put into the archive goes by the object name of one of them. -/
theorem abuild_libaroma_exact_iff {cmd : Interpreter} {r : Path} {e : Env} {sh sh' : Shell}
    {steps : List Step} {c : Option Token} (h : Fresh r e sh)
    (hfit : AllFit (runStep cmd) (CleanStepFits cmd) steps sh)
    (hrun : runs (runStep cmd) steps sh = sh') (hlast : CleanStepFits cmd (.abuild c) sh')
    (hcomplete : complete (loadedEnv cmd c sh')) :
    HoldsExactly (libaromaOf (loadedEnv cmd c sh') (abuild cmd (cfgArg c) sh'))
        (aromaFiles (loadedEnv cmd c sh') sh'.sources) sh'.clock ↔
      DistinctObjects (aromaFiles (loadedEnv cmd c sh') sh'.sources) ∧
      ∀ o ∈ outFolder (loadedEnv cmd c sh'),
        ∀ xs ∈ records (runStep cmd) (noteAroma cmd) steps sh noArchives o,
          Replaced (aromaFiles (loadedEnv cmd c sh') sh'.sources) xs := by
  have hrec := aromaRecorded_of_run h hfit
  rw [hrun] at hrec
  exact abuild_holdsExactly hrec hlast hcomplete

/-- The smallest configuration with memory debugging turned on. -/
def debugConfig : List Line :=
  smallConfig ++ [⟨"LIBAROMA_MEMDEBUG=yes".toList, by decide⟩]

/-- A repository to be built with memory debugging. -/
def debugRepository : Shell :=
  freshRepository ["atools".toList] [("config.txt".toList, .text debugConfig)] smallTree

theorem debugRepository_fresh : Fresh ["atools".toList] (fun _ => none) debugRepository := by
  apply fresh_freshRepository
  intro w hw
  rw [List.mem_singleton.mp hw, outFolderName]
  decide

theorem debugRepository_settings : complete (loadedEnv (.idle true) none debugRepository) ∧
    OutNamed (loadedEnv (.idle true) none debugRepository) "out-sdl_".toList := by
  decide +kernel

theorem debugRepository_files :
    aromaFiles (loadedEnv (.idle true) none debugRepository) debugRepository.sources =
      ["D:\\projects\\libaroma\\src\\debug\\buildinfo.c".toList,
        "D:\\projects\\libaroma\\src\\debug\\memtrack.c".toList, "D:\\projects\\libaroma\\src\\aroma.c".toList] := by
  decide +kernel

theorem debugRepository_fits : CleanStepFits (.idle true) (.abuild none) debugRepository := by
  refine ⟨⟨invoked_plain (by decide +kernel), by decide +kernel,
    fun _ => ⟨_, debugRepository_settings.2⟩⟩, fun c hc => ?_⟩
  obtain rfl : none = c := Step.abuild.inj hc
  rw [CleanFiles, debugRepository_files]
  decide

/-- The repository after a build. -/
def debugBuilt : Shell := runStep (.idle true) (.abuild none) debugRepository

theorem debugRepository_built : Effect (.idle true) ["atools".toList] debugRepository (.abuild none)
    debugBuilt := runStep_effect debugRepository_fresh.repository debugRepository_fits.1

/-- What the first build has archived. -/
theorem debugRepository_record :
    records (runStep (.idle true)) (noteAroma (.idle true)) [.abuild none] debugRepository
        noArchives "out-sdl_".toList =
      some ((aromaFiles (loadedEnv (.idle true) none debugRepository) debugRepository.sources).map
        fun s => (s, aromaFlags (loadedEnv (.idle true) none debugRepository))) := by
  rw [records, records, noteAroma,
    noteOut_self _ _ debugRepository_settings.2 debugRepository_settings.1]
  rfl

/-- The second build holds exactly the files it is to hold. -/
theorem abuild_libaroma_exact_again :
    HoldsExactly (libaromaOf (loadedEnv (.idle true) none debugBuilt)
        (abuild (.idle true) (cfgArg none) debugBuilt))
      (aromaFiles (loadedEnv (.idle true) none debugBuilt) debugBuilt.sources) debugBuilt.clock := by
  obtain ⟨hfit, hloaded⟩ := debugRepository_fits.1.kept debugRepository_fresh.repository
    debugRepository_built fun c lines h => nomatch h
  have hsources := debugRepository_built.sources fun t h => nomatch h
  have hclean : CleanStepFits (.idle true) (.abuild none) debugBuilt := by
    refine ⟨hfit, fun c hc => ?_⟩
    obtain rfl : none = c := Step.abuild.inj hc
    rw [hloaded, hsources]
    exact debugRepository_fits.2 none rfl
  have h := @abuild_libaroma_exact_iff (.idle true) _ _ _ debugBuilt [.abuild none] none
    debugRepository_fresh ⟨debugRepository_fits, trivial⟩ rfl hclean
    (by rw [hloaded]; exact debugRepository_settings.1)
  refine h.mpr ?_
  rw [hloaded, hsources]
  refine ⟨?_, ?_⟩
  · rw [debugRepository_files, DistinctObjects]
    decide
  · -- all that is recorded are files of these settings
    intro o ho xs hxs x hx
    obtain rfl : "out-sdl_".toList = o :=
      Option.some.inj ((outFolder_of_named debugRepository_settings.2).symm.trans ho)
    obtain rfl := Option.some.inj (debugRepository_record.symm.trans hxs)
    obtain ⟨s, hs, rfl⟩ := List.mem_map.mp hx
    exact ⟨s, hs, rfl⟩

/-- A build with memory debugging, which is then turned off. -/
def debugSteps : List Step := [.abuild none, .edit none smallConfig]

/-- The repository after it. -/
def debuggedOnce : Shell := runs (runStep (.idle true)) debugSteps debugRepository

theorem debuggedOnce_lines : configLines debuggedOnce [] = smallConfig := by
  have hrepo := debugRepository_fresh.repository.step debugRepository_fits.1
  refine @configLines_edit (.idle true) _ _ _ hrepo none "config.txt".toList smallConfig
    (by decide) ?_
  obtain ⟨_, _, hhome⟩ := debugRepository_built.home fun c lines h => nomatch h
  rw [debugBuilt] at hhome
  rw [Disk.file, hhome]
  decide +kernel

theorem debuggedOnce_fit :
    AllFit (runStep (.idle true)) (CleanStepFits (.idle true)) debugSteps debugRepository :=
  ⟨debugRepository_fits, ⟨⟨"config.txt".toList, by decide⟩, fun c h => nomatch h⟩, trivial⟩

/-- The settings without memory debugging. -/
theorem debuggedOnce_loaded : loadedEnv (.idle true) none debuggedOnce =
    (loadSettings (.idle true) [] smallConfig fun _ => none).1 := by
  have henv := (aromaRecorded_of_run debugRepository_fresh debuggedOnce_fit).1.env
  rw [loadedEnv, cfgArg_none, debuggedOnce_lines, debuggedOnce, henv]

theorem debuggedOnce_settings : complete (loadedEnv (.idle true) none debuggedOnce) ∧
    OutNamed (loadedEnv (.idle true) none debuggedOnce) "out-sdl_".toList ∧
    aromaFiles (loadedEnv (.idle true) none debuggedOnce) smallTree =
      ["D:\\projects\\libaroma\\src\\debug\\buildinfo.c".toList, "D:\\projects\\libaroma\\src\\aroma.c".toList] := by
  rw [debuggedOnce_loaded]
  decide +kernel

theorem debuggedOnce_files :
    aromaFiles (loadedEnv (.idle true) none debuggedOnce) debuggedOnce.sources =
      ["D:\\projects\\libaroma\\src\\debug\\buildinfo.c".toList, "D:\\projects\\libaroma\\src\\aroma.c".toList] := by
  have hbuilt := debugRepository_built.sources fun t h => nomatch h
  have hedited := (runStep_effect (debugRepository_fresh.repository.step debugRepository_fits.1)
    debuggedOnce_fit.2.1.1).sources fun t h => nomatch h
  rw [show debuggedOnce.sources = smallTree from hedited.trans hbuilt, debuggedOnce_settings.2.2]

/-- Memory debugging on, `abuild.cmd`, memory debugging off, `abuild.cmd`: libaroma.a still has the
object of memtrack.c. -/
theorem abuild_keeps_memtrack :
    ¬ HoldsExactly (libaromaOf (loadedEnv (.idle true) none debuggedOnce)
        (abuild (.idle true) (cfgArg none) debuggedOnce))
      (aromaFiles (loadedEnv (.idle true) none debuggedOnce) debuggedOnce.sources)
      debuggedOnce.clock := by
  obtain ⟨hcomplete, hout, _⟩ := debuggedOnce_settings
  have hrec : AromaRecorded _ _ debuggedOnce _ :=
    aromaRecorded_of_run debugRepository_fresh debuggedOnce_fit
  have hfit : CleanStepFits (.idle true) (.abuild none) debuggedOnce := by
    refine ⟨⟨invoked_plain ?_, ?_, fun _ => ⟨_, hout⟩⟩, fun c hc => ?_⟩
    · rw [debuggedOnce_lines]
      decide
    · rw [debuggedOnce_loaded]
      decide +kernel
    · obtain rfl : none = c := Step.abuild.inj hc
      rw [CleanFiles, debuggedOnce_files]
      decide
  intro h
  have hreplaced := ((abuild_holdsExactly hrec hfit hcomplete).mp h).2
  -- the first build has put memtrack.c on record
  have hnote := debugRepository_record
  rw [debugRepository_files] at hnote
  obtain ⟨s, hs, hsame⟩ := hreplaced _ (outFolder_of_named hout) _ hnote
    ("D:\\projects\\libaroma\\src\\debug\\memtrack.c".toList, _)
    (List.mem_map.mpr ⟨_, List.mem_cons_of_mem _ List.mem_cons_self, rfl⟩)
  rw [debuggedOnce_files] at hs
  revert s
  decide

end Atools
