import Atools.Steps

/-!
# Outside the out folders

`SameOutside` compares two states of a repository everywhere but in the out folders, some files next
to the scripts left out.  A step changes nothing there but the configuration file it edits
(`StepFits.sameOutside`), and so does a run (`run_outside`).

What the scripts read to settle what they will do all lies outside: two states that are the same there
load the same settings (`SameOutside.loadedEnv`) and allow the same steps (`SameOutside.stepFits`).
-/

namespace Atools

open Batch

/-- A place in no out folder. -/
def Outside (r q : Path) : Prop := ∀ o, outFolderName o → ¬ r ++ [o] <+: q

theorem outside_self (r : Path) : Outside r r := fun o _ => not_concat_prefix_self r o

theorem outside_below (r : Path) {n : Str} (hn : ¬ outFolderName n) : Outside r (r ++ [n]) := by
  intro o ho hp
  have heq := hp.eq_of_length (by simp)
  obtain rfl : o = n := List.singleton_inj.mp (List.append_cancel_left heq)
  exact hn ho

/-- Two states that are the same outside the out folders, but for some edited files. -/
structure SameOutside (r : Path) (edited : Str → Prop) (sh sh' : Shell) : Prop where
  cwd : sh'.cwd = sh.cwd
  env : sh'.env = sh.env
  isDir : ∀ q, Outside r q → sh'.disk.isDir q = sh.disk.isDir q
  file : ∀ q n, Outside r q → (q = r → ¬ edited n) → sh'.disk.file q n = sh.disk.file q n

/-- No file is edited. -/
def noFile (_ : Str) : Prop := False

namespace SameOutside

variable {r : Path} {edited edited' : Str → Prop} {sh sh' sh₁ sh₂ : Shell}

theorem refl (r : Path) (edited : Str → Prop) (sh : Shell) : SameOutside r edited sh sh :=
  ⟨rfl, rfl, fun _ _ => rfl, fun _ _ _ _ => rfl⟩

theorem symm (h : SameOutside r edited sh sh') : SameOutside r edited sh' sh :=
  ⟨h.cwd.symm, h.env.symm, fun q hq => (h.isDir q hq).symm, fun q n hq hn => (h.file q n hq hn).symm⟩

theorem trans (h : SameOutside r edited sh sh₁) (h' : SameOutside r edited sh₁ sh₂) :
    SameOutside r edited sh sh₂ :=
  ⟨h'.cwd.trans h.cwd, h'.env.trans h.env, fun q hq => (h'.isDir q hq).trans (h.isDir q hq),
    fun q n hq hn => (h'.file q n hq hn).trans (h.file q n hq hn)⟩

theorem mono (h : SameOutside r edited sh sh') (hsub : ∀ n, edited n → edited' n) :
    SameOutside r edited' sh sh' :=
  ⟨h.cwd, h.env, h.isDir, fun q n hq hn => h.file q n hq fun heq hmem => hn heq (hsub n hmem)⟩

/-- A change inside one out folder. -/
theorem of_frame {o : Str} (ho : outFolderName o) (hcwd : sh'.cwd = sh.cwd) (henv : sh'.env = sh.env)
    (hframe : ∀ q, ¬ r ++ [o] <+: q → sh'.disk.folder q = sh.disk.folder q) :
    SameOutside r edited sh sh' where
  cwd := hcwd
  env := henv
  isDir q hq := by rw [Disk.isDir, hframe q (hq o ho)]; rfl
  file q n hq _ := by rw [Disk.file, hframe q (hq o ho)]; rfl

end SameOutside

/-! ### What a step changes there -/

/-- The file next to the scripts that a step edits. -/
def Step.edits : Step → Str → Prop
  | .edit c _, n => segs (configName (cfgArg c)) = [.down n]
  | .alibs _ _, _ => False
  | .abuild _, _ => False
  | .fetch _, _ => False

/-- A file written next to the scripts. -/
theorem file_write_self {d : Disk File} {r : Path} {n : Str} (x : File) (m : Str) :
    (d.write (r ++ [n]) x).file r m =
      if m = n ∧ d.isDir r = true ∧ d.isDir (r ++ [n]) = false then some x else d.file r m := by
  rw [Disk.write_concat, Disk.file, Disk.folder_put, if_pos rfl]
  cases hf : d.folder r with
  | none =>
    rw [if_neg, Disk.file, hf]
    · rfl
    · rintro ⟨_, hdir, _⟩
      rw [Disk.isDir, hf] at hdir
      exact Bool.false_ne_true hdir
  | some f =>
    have hdir : d.isDir r = true := by rw [Disk.isDir, hf]; rfl
    rw [Disk.file, hf]
    show (writeAll f ([(n, x)].filter fun w => !d.isDir (r ++ [w.1]))).lookup m =
      if _ then some x else f.lookup m
    rw [lookup_writeAll]
    cases hfile : d.isDir (r ++ [n]) with
    | true =>
      have hnone : [(n, x)].filter (fun w => !d.isDir (r ++ [w.1])) = [] := by simp [hfile]
      rw [hnone, if_neg (by simp)]; rfl
    | false =>
      have hall : [(n, x)].filter (fun w => !d.isDir (r ++ [w.1])) = [(n, x)] := by simp [hfile]
      rw [hall, lastWrite_singleton]
      by_cases hm : n = m
      · rw [if_pos hm, if_pos ⟨hm.symm, hdir, rfl⟩]; rfl
      · rw [if_neg hm, if_neg fun h => hm h.1.symm]; rfl

theorem sameOutside_write (sh : Shell) (r : Path) (n : Str) (x : File) :
    SameOutside r (· = n) sh { sh with disk := sh.disk.write (r ++ [n]) x } where
  cwd := rfl
  env := rfl
  isDir q _ := Disk.isDir_write _ _ q _
  file q m _ hm := by
    by_cases hq : q = r
    · subst hq
      show (sh.disk.write _ x).file q m = _
      rw [file_write_self, if_neg fun h => hm rfl h.1]
    · show (sh.disk.write _ x).file q m = _
      rw [Disk.write_concat, Disk.file, Disk.folder_put_ne _ _ hq]; rfl

section Steps

variable {cmd : Interpreter} {r : Path} {e : Env} {sh sh' : Shell} {a : Step}

/-- Building changes nothing outside the out folders. -/
theorem Effect.sameOutside (he : Effect cmd r sh a sh') (hedit : ∀ c lines, a ≠ .edit c lines) :
    SameOutside r noFile sh sh' := by
  cases he with
  | alibsStopped | abuildStopped | fetched => exact ⟨rfl, rfl, fun _ _ => rfl, fun _ _ _ _ => rfl⟩
  | alibsBuilt c names o d clock es _ _ ho _ hchange => exact .of_frame ho rfl rfl hchange.frame
  | abuildBuilt c o d₁ d clock es ls _ _ ho _ hready hchange =>
    exact .of_frame ho rfl rfl fun q hq => (hchange.frame q hq).trans (hready.frame hq)
  | edited c lines => exact absurd rfl (hedit c lines)

/-- **A step** changes nothing but the file it edits. -/
theorem StepFits.sameOutside (hfit : StepFits cmd a sh) (h : Repository r e sh) :
    SameOutside r a.edits sh (runStep cmd a sh) := by
  have hfalse : ∀ n, noFile n → a.edits n := fun n hn => hn.elim
  cases a with
  | alibs c names =>
    exact ((runStep_effect h hfit).sameOutside fun c lines h => nomatch h).mono hfalse
  | abuild c => exact ((runStep_effect h hfit).sameOutside fun c lines h => nomatch h).mono hfalse
  | fetch t => exact ((runStep_effect h hfit).sameOutside fun c lines h => nomatch h).mono hfalse
  | edit c lines =>
    obtain ⟨n, hn⟩ := hfit
    have hrun : runStep cmd (.edit c lines) sh =
        { sh with disk := sh.disk.write (r ++ [n]) (.text lines) } := by
      rw [runStep, h.cwd, (resolve_configName r hn).1, ← h.cwd]
    rw [hrun]
    refine (sameOutside_write sh r n (.text lines)).mono fun m hm => ?_
    rw [hm]
    exact hn

theorem sameOutside_of_run (h : Repository r e sh) {steps : List Step}
    (hfit : AllFit (runStep cmd) (StepFits cmd) steps sh) :
    Repository r e (runs (runStep cmd) steps sh) ∧
      SameOutside r (fun n => ∃ a ∈ steps, a.edits n) sh (runs (runStep cmd) steps sh) := by
  induction steps generalizing sh with
  | nil => exact ⟨h, .refl r _ sh⟩
  | cons a as ih =>
    obtain ⟨hrepo, hrest⟩ := ih (h.step hfit.1) hfit.2
    have hstep : SameOutside r (fun n => ∃ b ∈ a :: as, b.edits n) sh (runStep cmd a sh) :=
      (hfit.1.sameOutside h).mono fun n hn => ⟨a, List.mem_cons_self, hn⟩
    refine ⟨hrepo, hstep.trans (hrest.mono ?_)⟩
    rintro n ⟨b, hb, hn⟩
    exact ⟨b, List.mem_cons_of_mem a hb, hn⟩

/-! ### What the scripts read there -/

/-- The configuration file lies next to the scripts. -/
def ConfigHere (c : Option Token) : Prop := ∃ n, segs (configName (cfgArg c)) = [.down n]

variable {edited : Str → Prop}

theorem SameOutside.fileAt (h : SameOutside r edited sh sh') {n : Str} (hn : ¬ edited n) :
    sh'.disk.fileAt (r ++ [n]) = sh.disk.fileAt (r ++ [n]) := by
  rw [Disk.fileAt_concat, Disk.fileAt_concat, h.file r n (outside_self r) fun _ => hn]

theorem SameOutside.configLines (h : SameOutside r edited sh sh') (hcwd : sh.cwd = r) {arg n : Str}
    (hn : segs (configName arg) = [.down n]) (hkept : ¬ edited n) :
    configLines sh' arg = configLines sh arg := by
  rw [Atools.configLines, Atools.configLines, h.cwd, hcwd, (resolve_configName r hn).1,
    h.fileAt hkept]

theorem SameOutside.exist (h : SameOutside r edited sh sh') (hcwd : sh.cwd = r) {s n : Str}
    (hn : segs ("config".toList ++ s) = [.down n]) (hkept : ¬ edited n) :
    sh'.exist ("config".toList ++ s) = sh.exist ("config".toList ++ s) := by
  obtain ⟨hpath, hno⟩ := resolve_config r hn
  rw [Shell.exist, Shell.exist, h.cwd, hcwd, hpath, Disk.existsAt, Disk.existsAt,
    h.isDir _ (outside_below r hno), h.fileAt hkept]

/-- The same settings are loaded. -/
theorem SameOutside.loadedEnv (h : SameOutside r edited sh sh') (hcwd : sh.cwd = r)
    {c : Option Token} {n : Str} (hn : segs (configName (cfgArg c)) = [.down n])
    (hkept : ¬ edited n) : loadedEnv cmd c sh' = loadedEnv cmd c sh := by
  rw [Atools.loadedEnv, Atools.loadedEnv, h.configLines hcwd hn hkept, h.env]

/-- A name without separators and a dot at its end names one file. -/
theorem segs_of_name {s : Str} {c : Char} (h : ∀ d ∈ s ++ [c], sep d = false) (hc : c ≠ '.') :
    segs (s ++ [c]) = [.down (fold (s ++ [c]))] := by
  have hnormal : normalName (s ++ [c]) = s ++ [c] := by
    rw [normalName]
    split
    · rfl
    · rw [List.rdropWhile_concat_neg _ _ _ (by simpa using hc)]
  have hlast : (s ++ [c]).getLast? = some c := List.getLast?_concat
  have hseg : segOf (s ++ [c]) = some (.down (fold (s ++ [c]))) := by
    rw [segOf, if_neg, if_neg, hnormal]
    · intro heq
      rw [heq] at hlast
      exact hc (Option.some.inj hlast).symm
    · intro heq
      rw [heq] at hlast
      exact hc (Option.some.inj hlast).symm
  rw [segs, fields_of_no_delim h, if_neg (by simp), List.filterMap_cons, hseg]; rfl

/-- The configuration file a library name would stand for lies next to the scripts. -/
theorem segs_of_library {i : Str} {l : Lib} (h : Lib.ofName i = some l) :
    ∃ n, segs ("config".toList ++ ('-' :: i ++ ".txt".toList)) = [.down n] := by
  have hplain := Lib.plainName_of_ofName h
  simp only [plainName, Bool.and_eq_true, List.all_eq_true, Bool.not_eq_true',
    Bool.or_eq_false_iff] at hplain
  rw [show "config".toList ++ ('-' :: i ++ ".txt".toList) =
    "config-".toList ++ i ++ ".tx".toList ++ ['t'] by simp]
  refine ⟨_, segs_of_name (fun c hc => ?_) (by decide)⟩
  rw [List.mem_append, List.mem_append, List.mem_append, or_assoc, or_assoc] at hc
  rcases hc with hc | hc | hc
  · exact (show ∀ c ∈ "config-".toList, sep c = false by simp [sep]) c hc
  · exact (hplain.2 c hc).1
  · exact (show ∀ c ∈ ".tx".toList ++ ['t'], sep c = false by simp [sep]) c
      (List.mem_append.mpr hc)

/-- The configuration file of a step lies next to the scripts. -/
def Step.Here : Step → Prop
  | .alibs c _ => ConfigHere c
  | .abuild c => ConfigHere c
  | .edit c _ => ConfigHere c
  | .fetch _ => True

theorem SameOutside.existConfig (h : SameOutside r noFile sh sh') (hcwd : sh.cwd = r) {s n : Str}
    (hn : segs ("config".toList ++ ('-' :: s ++ ".txt".toList)) = [.down n]) :
    sh'.exist ("config-".toList ++ s ++ ".txt".toList) =
      sh.exist ("config-".toList ++ s ++ ".txt".toList) := by
  rw [show "config-".toList ++ s ++ ".txt".toList =
    "config".toList ++ ('-' :: s ++ ".txt".toList) by simp]
  exact h.exist hcwd hn id

/-- A proper invocation is one in all states that are the same outside the out folders. -/
theorem SameOutside.invoked (h : SameOutside r noFile sh sh') (hcwd : sh.cwd = r)
    {c : Option Token} {names : List Token} (hhere : ConfigHere c)
    (hnames : ∀ n ∈ names, (Lib.ofName n.text).isSome) (hinv : Invoked sh c names) :
    Invoked sh' c names := by
  obtain ⟨n, hn⟩ := hhere
  have hlines := h.configLines hcwd hn id
  refine ⟨?_, ?_, fun hc hne => ?_, ?_, fun hne => ?_⟩
  · intro t ht
    obtain rfl := Option.mem_def.mp ht
    rw [cfgArg_some, configName, if_neg t.nonempty] at hn
    rw [h.existConfig hcwd (n := n) (by simpa using hn)]
    exact hinv.config t rfl
  · intro hc t ht
    obtain ⟨l, hl⟩ := Option.isSome_iff_exists.mp (hnames t (List.mem_of_mem_head? ht))
    obtain ⟨m, hm⟩ := segs_of_library hl
    rw [h.existConfig hcwd hm]
    exact hinv.first hc t ht
  · rw [h.env]
    exact hinv.unset hc hne
  · rw [hlines]
    exact hinv.switches
  · rw [hlines]
    exact hinv.unread hne

/-- alibs.cmd comes to the same settings. -/
theorem SameOutside.alibsSettings (h : SameOutside r noFile sh sh') (hcwd : sh.cwd = r)
    {c : Option Token} {names : List Token} (hhere : ConfigHere c)
    (hnames : ∀ n ∈ names, (Lib.ofName n.text).isSome) (hinv : Invoked sh c names) :
    (alibsSettings cmd (argList c names) sh').env = (alibsSettings cmd (argList c names) sh).env := by
  have hinv' := h.invoked hcwd hhere hnames hinv
  obtain ⟨n, hn⟩ := hhere
  have hexist : sh'.exist ("config-".toList ++ (argList c names).headD [] ++ ".txt".toList) =
      sh.exist ("config-".toList ++ (argList c names).headD [] ++ ".txt".toList) := by
    cases c with
    | some t => exact (hinv'.config t rfl).trans (hinv.config t rfl).symm
    | none =>
      cases names with
      | nil => exact h.existConfig hcwd (s := []) (n := "config-.txt".toList) (by decide)
      | cons t ts => exact (hinv'.first rfl t rfl).trans (hinv.first rfl t rfl).symm
  obtain ⟨env, es, heq, _, _, henv⟩ := alibsSettings_eq cmd (argList c names) sh
  obtain ⟨env', es', heq', _, _, henv'⟩ := alibsSettings_eq cmd (argList c names) sh'
  rw [heq, heq', henv, henv', hinv.alibsArg, hinv'.alibsArg, hexist, h.env,
    h.configLines hcwd hn id]

/-- **The same outside, the same steps.** -/
theorem SameOutside.stepFits (h : SameOutside r noFile sh sh') (hcwd : sh.cwd = r)
    (hhere : a.Here) (hfit : StepFits cmd a sh) : StepFits cmd a sh' := by
  cases a with
  | alibs c names =>
    obtain ⟨hinv, hlen, hnames, hout⟩ := hfit
    refine ⟨h.invoked hcwd hhere hnames hinv, hlen, hnames, ?_⟩
    rw [h.alibsSettings hcwd hhere hnames hinv]
    exact hout
  | abuild c =>
    obtain ⟨n, hn⟩ := hhere
    refine ⟨h.invoked hcwd ⟨n, hn⟩ (fun n hn => absurd hn List.not_mem_nil) hfit.1, ?_⟩
    rw [h.loadedEnv hcwd hn id]
    exact hfit.2
  | edit c lines => exact hfit
  | fetch t => exact hfit

/-- The same step keeps two states the same outside. -/
theorem SameOutside.runStep (h : SameOutside r noFile sh sh') (hrepo : Repository r e sh)
    (hrepo' : Repository r e sh') (hfit : StepFits cmd a sh) (hfit' : StepFits cmd a sh') :
    SameOutside r noFile (runStep cmd a sh) (runStep cmd a sh') := by
  have hbuild : (∀ c lines, a ≠ .edit c lines) →
      SameOutside r noFile (Atools.runStep cmd a sh) (Atools.runStep cmd a sh') := fun hedit =>
    (((runStep_effect hrepo hfit).sameOutside hedit).symm.trans h).trans
      ((runStep_effect hrepo' hfit').sameOutside hedit)
  cases a with
  | alibs c names => exact hbuild fun c lines h => nomatch h
  | abuild c => exact hbuild fun c lines h => nomatch h
  | fetch t => exact hbuild fun c lines h => nomatch h
  | edit c lines =>
    obtain ⟨n, hn⟩ := hfit
    obtain ⟨hpath, hno⟩ := resolve_configName r hn
    have hdisk : ∀ s : Shell, s.cwd = r → (Atools.runStep cmd (.edit c lines) s).disk =
        s.disk.write (r ++ [n]) (.text lines) := by
      intro s hs
      rw [Atools.runStep, hs, hpath]
    refine ⟨h.cwd, h.env, fun q hq => ?_, fun q m hq hm => ?_⟩
    · rw [hdisk sh hrepo.cwd, hdisk sh' hrepo'.cwd, Disk.isDir_write, Disk.isDir_write]
      exact h.isDir q hq
    · rw [hdisk sh hrepo.cwd, hdisk sh' hrepo'.cwd]
      by_cases hqr : q = r
      · subst hqr
        rw [file_write_self, file_write_self, h.isDir q hq, h.isDir _ (outside_below q hno),
          h.file q m hq hm]
      · rw [Disk.write_concat, Disk.write_concat, Disk.file, Disk.file,
          Disk.folder_put_ne _ _ hqr, Disk.folder_put_ne _ _ hqr]
        exact h.file q m hq hm

end Steps

end Atools
