import Atools.ConfigReading

/-!
# The settings `_setldr.cmd` leaves behind

Away from the few variables the loader sets itself, a setting is the last text a line of the
configuration file assigns to it, or what the environment held before (`loadSettings_get`).

The scripts call one another, and each loads the settings again over the environment it is called
with.  Loading the same file a second time leaves every `LIBAROMA_` variable and the generic flags
as they are (`loadSettings_again`).
-/

namespace Atools

open Batch

/-- A variable `_setldr.cmd` sets outside its loop. -/
def ownVariable (v : Str) : Bool :=
  fold v ∈ ["la_generic_cflags".toList, "cfg_name".toList, "libaroma_platform".toList,
    "libaroma_platform_android".toList, "libaroma_out".toList]

theorem addFlags_get_ne {env : Env} {v : Str} (flags : Str)
    (hv : fold v ≠ fold "LA_GENERIC_CFLAGS".toList) : (addFlags flags env).get v = env.get v :=
  Env.get_assign_ne env _ hv

/-- The flags are the only thing that changes. -/
theorem genericFlags_get_ne (env : Env) {v : Str}
    (hv : fold v ≠ fold "LA_GENERIC_CFLAGS".toList) : (genericFlags env).get v = env.get v := by
  have hboth : ∀ (c : Bool) (a b : Str) (e : Env),
      (if c = true then addFlags a e else addFlags b e).get v = e.get v := by
    intro c a b e
    split
    · exact addFlags_get_ne a hv
    · exact addFlags_get_ne b hv
  have hone : ∀ (c : Bool) (a : Str) (e : Env),
      (if c = true then addFlags a e else e).get v = e.get v := by
    intro c a e
    split
    · exact addFlags_get_ne a hv
    · rfl
  rw [genericFlags]
  simp only [hboth, hone]

theorem androidPlatform_get_ne (env : Env) {v : Str}
    (hplatform : fold v ≠ fold "LIBAROMA_PLATFORM".toList)
    (handroid : fold v ≠ fold "LIBAROMA_PLATFORM_ANDROID".toList) :
    (androidPlatform env).get v = env.get v := by
  rw [androidPlatform]
  split
  · rw [Env.get_assign_ne _ _ handroid, Env.get_assign_ne _ _ hplatform]
  · rfl

theorem finishSettings_get (arg : Str) (env : Env) {v : Str} (hv : ownVariable v = false) :
    (finishSettings arg env).1.get v = env.get v := by
  simp only [ownVariable, decide_eq_false_iff_not, List.mem_cons, List.not_mem_nil, or_false,
    not_or] at hv
  obtain ⟨hflags, _, hplatform, handroid, hout⟩ := hv
  rw [finishSettings]
  split
  · rfl
  · split
    · rfl
    · show ((androidPlatform (genericFlags env)).assign _ _).get v = env.get v
      rw [Env.get_assign_ne _ _ hout, androidPlatform_get_ne _ hplatform handroid,
        genericFlags_get_ne _ hflags]

theorem startSettings_get (arg : Str) (env : Env) {v : Str} (hv : ownVariable v = false) :
    (startSettings arg env).get v = env.get v := by
  simp only [ownVariable, decide_eq_false_iff_not, List.mem_cons, List.not_mem_nil, or_false,
    not_or] at hv
  rw [startSettings, Env.get_assign_ne _ _ hv.2.1, Env.get_assign_ne _ _ hv.1]

/-- **A setting** is what the last line that assigns it says, or what it was before. -/
theorem loadSettings_get (cmd : Interpreter) (arg : Str) {lines : List Line} (env : Env) {v : Str}
    (hlines : ∀ l ∈ lines, handsSwitch l.text = false) (hscratch : scratch v = false)
    (hown : ownVariable v = false) :
    (loadSettings cmd arg lines env).1.get v = outcome (lastRead loopRead lines v) (env.get v) := by
  rw [loadSettings, finishSettings_get arg _ hown, configLoop_get cmd _ lines v hlines hscratch,
    startSettings_get arg env hown]

/-- A variable no line assigns keeps its value. -/
theorem loadSettings_get_of_unread (cmd : Interpreter) (arg : Str) {lines : List Line} (env : Env)
    {v : Str} (hlines : ∀ l ∈ lines, handsSwitch l.text = false)
    (hunread : ∀ l ∈ lines, (loopRead l.text).map Prod.fst ≠ some (fold v))
    (hscratch : scratch v = false) (hown : ownVariable v = false) :
    (loadSettings cmd arg lines env).1.get v = env.get v := by
  have hnone : lastRead loopRead lines v = none := by
    rw [lastRead, lastWrite_eq_none_iff]
    intro w hw hkey
    obtain ⟨l, hl, hread⟩ := List.mem_filterMap.mp hw
    exact hunread l hl (by rw [hread, ← hkey]; rfl)
  rw [loadSettings_get cmd arg env hlines hscratch hown, hnone]; rfl

/-- Settings with the two that must be there. -/
def complete (env : Env) : Prop :=
  env.text "LIBAROMA_SOURCE" ≠ [] ∧ env.text "LIBAROMA_PLATFORM" ≠ []

instance (env : Env) : Decidable (complete env) := inferInstanceAs (Decidable (_ ∧ _))

/-- The checks for missing settings come out the same before and after the loader is done. -/
theorem finishSettings_complete {arg : Str} {env : Env} (h : complete (finishSettings arg env).1) :
    (finishSettings arg env).1 = (androidPlatform (genericFlags env)).assign "LIBAROMA_OUT"
      (outName arg (androidPlatform (genericFlags env))) := by
  rw [finishSettings] at h ⊢
  split
  · rename_i hsource
    rw [if_pos hsource] at h
    exact absurd hsource h.1
  · rename_i hsource
    rw [if_neg hsource] at h
    split
    · rename_i hplatform
      rw [if_pos hplatform] at h
      exact absurd hplatform h.2
    · rfl

/-- The out folder starts with `out-`. -/
theorem loadSettings_out {cmd : Interpreter} {arg : Str} {lines : List Line} {env : Env}
    (h : complete (loadSettings cmd arg lines env).1) :
    ∃ s, (loadSettings cmd arg lines env).1.text "LIBAROMA_OUT" = "out-".toList ++ s := by
  rw [loadSettings] at h ⊢
  rw [finishSettings_complete h, Env.text_assign_self, outName, List.append_assoc]
  exact ⟨_, rfl⟩

/-! ### Settings the scripts can work with -/

/-- A `LIBAROMA_` variable. -/
def settingVar (v : Str) : Bool := "libaroma_".toList.isPrefixOf (fold v)

/-- Two environments with the same `LIBAROMA_` variables. -/
def SameSettings (env env' : Env) : Prop := ∀ v, settingVar v = true → env'.get v = env.get v

theorem SameSettings.text {env env' : Env} (h : SameSettings env env') {v : Str}
    (hv : settingVar v = true) : env'.text v = env.text v := Env.text_congr (h v hv)

theorem SameSettings.trans {e₁ e₂ e₃ : Env} (h : SameSettings e₁ e₂) (h' : SameSettings e₂ e₃) :
    SameSettings e₁ e₃ := fun v hv => (h' v hv).trans (h v hv)

/-- Settings that are alike are both complete or both incomplete. -/
theorem SameSettings.complete_iff {env env' : Env} (h : SameSettings env env') :
    complete env' ↔ complete env := by
  rw [complete, complete, h.text (by decide), h.text (by decide)]

theorem SameSettings.symm {env env' : Env} (h : SameSettings env env') : SameSettings env' env :=
  fun v hv => (h v hv).symm

/-- The settings that scripts paste between double quotes, as `"%NAME%"`. -/
def quotedSettings : List Str :=
  ["LIBAROMA_SOURCE", "LIBAROMA_PLATFORM", "LIBAROMA_CPU", "LIBAROMA_DRM", "LIBAROMA_JPEG",
    "LIBAROMA_HARFBUZZ", "LIBAROMA_SVG", "LIBAROMA_ZIP", "LIBAROMA_OPENMP", "LIBAROMA_DEBUG",
    "LIBAROMA_MEMDEBUG", "LIBAROMA_LOGLEVEL", "LIBAROMA_LOGFILE", "LIBAROMA_BUILDINFO"]

/-- The settings that scripts paste as they are, as `%NAME%`. -/
def bareSettings : List Str :=
  ["LIBAROMA_CPU", "LIBAROMA_LOGLEVEL", "LIBAROMA_LOGFILE", "LIBAROMA_GCC", "LIBAROMA_AR",
    "LA_GENERIC_CFLAGS"]

/-- Settings the scripts can work with.  A double quote in a pasted text, such as the text `"=` that
the loader makes of a blank value, takes the command apart it is pasted into, and cmd.exe gives up all
scripts that are running; so the pasted texts hold none, nor anything else cmd.exe acts on there.
There is a compiler and an archiver to call. -/
def Usable (env : Env) : Prop :=
  (∀ v ∈ quotedSettings, (env.text v).all (fun c => c != '"' && !actsQuoted c) = true) ∧
    (complete env →
      (∀ v ∈ bareSettings, (env.text v).all (fun c => c != '"' && !actsBare c) = true) ∧
        env.text "LIBAROMA_GCC" ≠ [] ∧ env.text "LIBAROMA_AR" ≠ [])

instance (env : Env) : Decidable (Usable env) := inferInstanceAs (Decidable (_ ∧ _))

/-- Whether settings are usable depends on the texts that are pasted only. -/
theorem usable_congr {env env' : Env} (h : ∀ v, settingVar v = true →
      fold v ≠ fold "LIBAROMA_PLATFORM_ANDROID".toList → env'.text v = env.text v)
    (hflags : complete env → env'.text "LA_GENERIC_CFLAGS" = env.text "LA_GENERIC_CFLAGS")
    (husable : Usable env) : Usable env' := by
  obtain ⟨hquoted, hbare⟩ := husable
  refine ⟨fun v hv => ?_, fun hcomplete => ?_⟩
  · have hsetting : ∀ v ∈ quotedSettings, settingVar v = true ∧
        fold v ≠ fold "LIBAROMA_PLATFORM_ANDROID".toList := by decide
    rw [h v (hsetting v hv).1 (hsetting v hv).2]
    exact hquoted v hv
  · rw [complete, h _ (by decide) (by decide), h _ (by decide) (by decide)] at hcomplete
    obtain ⟨htexts, htools⟩ := hbare hcomplete
    refine ⟨fun v hv => ?_, ?_⟩
    · have hsetting : ∀ v ∈ bareSettings, v = "LA_GENERIC_CFLAGS".toList ∨ settingVar v = true ∧
          fold v ≠ fold "LIBAROMA_PLATFORM_ANDROID".toList := by decide
      obtain rfl | ⟨hset, hne⟩ := hsetting v hv
      · rw [hflags hcomplete]
        exact htexts _ hv
      · rw [h v hset hne]
        exact htexts v hv
    · rw [h _ (by decide) (by decide), h _ (by decide) (by decide)]
      exact htools

/-! ### Loading without switches -/

section Interpreters

variable (cmd cmd' : Interpreter)

theorem configStep_interp (env : Env) {l : Str} (hl : handsSwitch l = false) :
    configStep cmd' env l = configStep cmd env l := by
  obtain ⟨env', _, heq⟩ := configStep_eq env l
  rw [heq cmd, heq cmd']
  cases hr : readLine l with
  | none => rfl
  | some arg =>
    apply runSet_interp
    intro a ha
    rw [handsSwitch, hr, Option.map_some, ha] at hl
    exact Bool.false_ne_true hl.symm

theorem configLoop_interp (env : Env) {lines : List Line}
    (hlines : ∀ l ∈ lines, handsSwitch l.text = false) :
    configLoop cmd' env lines = configLoop cmd env lines := by
  induction lines generalizing env with
  | nil => rfl
  | cons l ls ih =>
    have hrest := ih (configStep cmd env l.text) fun l' hl' =>
      hlines l' (List.mem_cons_of_mem l hl')
    rw [configLoop, configLoop, List.foldl_cons, List.foldl_cons,
      configStep_interp cmd cmd' env (hlines l List.mem_cons_self)]
    exact hrest

/-- Without switches it does not matter what the switches of `set` do. -/
theorem loadSettings_interp (arg : Str) (env : Env) {lines : List Line}
    (hlines : ∀ l ∈ lines, handsSwitch l.text = false) :
    loadSettings cmd' arg lines env = loadSettings cmd arg lines env := by
  rw [loadSettings, loadSettings, configLoop_interp cmd cmd' _ hlines]

end Interpreters

/-! ### Loading the settings twice -/

/-- Something was missing already after the loop when it is missing in the end. -/
theorem complete_of_finishSettings {arg : Str} {env : Env}
    (h : complete (finishSettings arg env).1) : complete env := by
  rw [finishSettings] at h
  split at h
  · exact h
  · rename_i hsource
    split at h
    · exact h
    · rename_i hplatform
      exact ⟨hsource, hplatform⟩

theorem ne_of_settingVar {v x : Str} (hv : settingVar v = true) (hx : settingVar x = false) :
    fold v ≠ fold x := by
  intro h
  rw [settingVar, h, ← settingVar, hx] at hv
  exact Bool.false_ne_true hv

/-- Other variables are no settings. -/
theorem sameSettings_assign {env env' : Env} (h : SameSettings env env') {name : Str}
    (hname : settingVar name = false) (x : Str) : SameSettings env (env'.assign name x) := by
  intro v hv
  rw [Env.get_assign_ne _ _ (ne_of_settingVar hv hname)]
  exact h v hv

theorem scratch_of_settingVar {v : Str} (hv : settingVar v = true) : scratch v = false := by
  have hkey := ne_of_settingVar hv (show settingVar "key".toList = false by decide)
  have hval := ne_of_settingVar hv (show settingVar "val".toList = false by decide)
  have htemp := ne_of_settingVar hv (show settingVar "tempvar".toList = false by decide)
  simp only [scratch, Bool.or_eq_false_iff, beq_eq_false_iff_ne]
  exact ⟨⟨hkey, hval⟩, htemp⟩

/-- Assigning the same text twice is assigning it once. -/
theorem outcome_outcome (x old : Option Str) : outcome x (outcome x old) = outcome x old := by
  cases x <;> rfl

section Again

variable (cmd : Interpreter) (arg : Str) {lines : List Line}

/-- The environment after the loop. -/
def afterLoop (lines : List Line) (env : Env) : Env :=
  configLoop cmd (startSettings arg env) lines

theorem loadSettings_eq (env : Env) :
    loadSettings cmd arg lines env = finishSettings arg (afterLoop cmd arg lines env) := rfl

theorem afterLoop_get (hlines : ∀ l ∈ lines, handsSwitch l.text = false) (env : Env) {v : Str}
    (hv : settingVar v = true) :
    (afterLoop cmd arg lines env).get v = outcome (lastRead loopRead lines v) (env.get v) := by
  rw [afterLoop, configLoop_get cmd _ lines v hlines (scratch_of_settingVar hv), startSettings,
    Env.get_assign_ne _ _ (ne_of_settingVar hv (by decide)),
    Env.get_assign_ne _ _ (ne_of_settingVar hv (by decide))]

/-- The flags the loop starts from do not depend on the environment. -/
theorem afterLoop_flags (hlines : ∀ l ∈ lines, handsSwitch l.text = false) (env env' : Env) :
    (afterLoop cmd arg lines env').get "LA_GENERIC_CFLAGS" =
      (afterLoop cmd arg lines env).get "LA_GENERIC_CFLAGS" := by
  have hstart : ∀ e : Env, (startSettings arg e).get "LA_GENERIC_CFLAGS" =
      some "-Wl,--no-as-needed -D_LARGEFILE64_SOURCE -fPIC -DPIC".toList := by
    intro e
    rw [startSettings, Env.get_assign_ne _ _ (by decide), Env.get_assign_self _ (by decide)]
  rw [afterLoop, afterLoop, configLoop_get cmd _ lines _ hlines (by decide),
    configLoop_get cmd _ lines _ hlines (by decide), hstart, hstart]

/-- The flags `_setldr.cmd` adds after the loop. -/
def addedFlags (env : Env) : Str :=
  (if isSet env "LIBAROMA_DEBUG" "yes" then " -g -ggdb".toList else " -s -O3".toList) ++
  (if isSet env "LIBAROMA_WARNINGS" "yes" then " -Wall -Wextra".toList else " -w".toList) ++
  (if isSet env "LIBAROMA_CPU" "neon" then " -mfloat-abi=hard -mfpu=neon -D__ARM_NEON".toList
    else []) ++
  (if isSet env "LIBAROMA_CPU" "sse2" then " -msse2 -D__i386".toList else []) ++
  (if isSet env "LIBAROMA_NOWINCONSOLE" "yes" then " -mwindows".toList else [])

theorem genericFlags_text (env : Env) :
    (genericFlags env).text "LA_GENERIC_CFLAGS" =
      env.text "LA_GENERIC_CFLAGS" ++ addedFlags env := by
  have hboth : ∀ (c : Bool) (a b : Str) (e : Env),
      (if c = true then addFlags a e else addFlags b e).text "LA_GENERIC_CFLAGS" =
        e.text "LA_GENERIC_CFLAGS" ++ if c = true then a else b := by
    intro c a b e
    split <;> exact Env.text_assign_self _ _ _
  have hone : ∀ (c : Bool) (a : Str) (e : Env),
      (if c = true then addFlags a e else e).text "LA_GENERIC_CFLAGS" =
        e.text "LA_GENERIC_CFLAGS" ++ if c = true then a else [] := by
    intro c a e
    split
    · exact Env.text_assign_self _ _ _
    · rw [List.append_nil]
  -- the tests read other variables than the flags
  have hset : ∀ (name value a : Str) (e : Env), fold name ≠ fold "LA_GENERIC_CFLAGS".toList →
      isSet (addFlags a e) name value = isSet e name value := by
    intro name value a e hname
    rw [isSet, isSet, addFlags, Env.text_assign_ne _ _ hname]
  have hsetBoth : ∀ (name value a b : Str) (c : Bool) (e : Env),
      fold name ≠ fold "LA_GENERIC_CFLAGS".toList →
      isSet (if c = true then addFlags a e else addFlags b e) name value = isSet e name value := by
    intro name value a b c e hname
    split <;> exact hset name value _ e hname
  have hsetOne : ∀ (name value a : Str) (c : Bool) (e : Env),
      fold name ≠ fold "LA_GENERIC_CFLAGS".toList →
      isSet (if c = true then addFlags a e else e) name value = isSet e name value := by
    intro name value a c e hname
    split
    · exact hset name value _ e hname
    · rfl
  have hwarnings : fold "LIBAROMA_WARNINGS".toList ≠ fold "LA_GENERIC_CFLAGS".toList := by decide
  have hcpu : fold "LIBAROMA_CPU".toList ≠ fold "LA_GENERIC_CFLAGS".toList := by decide
  have hconsole : fold "LIBAROMA_NOWINCONSOLE".toList ≠ fold "LA_GENERIC_CFLAGS".toList := by
    decide
  rw [genericFlags, addedFlags]
  simp only [hone, hboth, hsetOne _ _ _ _ _ hconsole, hsetOne _ _ _ _ _ hcpu,
    hsetBoth _ _ _ _ _ _ hconsole, hsetBoth _ _ _ _ _ _ hcpu, hsetBoth _ _ _ _ _ _ hwarnings,
    List.append_assoc]

/-- A `LIBAROMA_` variable that the loader only reads. -/
theorem finishSettings_read (env : Env) {v : Str} (hv : settingVar v = true)
    (hplatform : fold v ≠ fold "LIBAROMA_PLATFORM".toList)
    (handroid : fold v ≠ fold "LIBAROMA_PLATFORM_ANDROID".toList)
    (hout : fold v ≠ fold "LIBAROMA_OUT".toList) :
    (finishSettings arg env).1.get v = env.get v := by
  apply finishSettings_get
  have hflags := ne_of_settingVar hv (show settingVar "la_generic_cflags".toList = false by decide)
  have hname := ne_of_settingVar hv (show settingVar "cfg_name".toList = false by decide)
  simp only [ownVariable, decide_eq_false_iff_not, List.mem_cons, List.not_mem_nil, or_false,
    not_or]
  exact ⟨hflags, hname, hplatform, handroid, hout⟩

/-- The platform, with android read as linux. -/
theorem finishSettings_platform {env : Env} (h : complete (finishSettings arg env).1) :
    (finishSettings arg env).1.get "LIBAROMA_PLATFORM" =
      if isSet env "LIBAROMA_PLATFORM" "android" then some "linux".toList
      else env.get "LIBAROMA_PLATFORM" := by
  have hset : isSet (genericFlags env) "LIBAROMA_PLATFORM" "android" =
      isSet env "LIBAROMA_PLATFORM" "android" := by
    rw [isSet, isSet, Env.text_congr (genericFlags_get_ne env (by decide))]
  rw [finishSettings_complete h, Env.get_assign_ne _ _ (by decide), androidPlatform, hset]
  split
  · rw [Env.get_assign_ne _ _ (by decide), Env.get_assign_self _ (by decide)]
  · rw [genericFlags_get_ne _ (by decide)]

theorem finishSettings_android {env : Env} (h : complete (finishSettings arg env).1) :
    (finishSettings arg env).1.get "LIBAROMA_PLATFORM_ANDROID" =
      if isSet env "LIBAROMA_PLATFORM" "android" then some "yes".toList
      else env.get "LIBAROMA_PLATFORM_ANDROID" := by
  have hset : isSet (genericFlags env) "LIBAROMA_PLATFORM" "android" =
      isSet env "LIBAROMA_PLATFORM" "android" := by
    rw [isSet, isSet, Env.text_congr (genericFlags_get_ne env (by decide))]
  rw [finishSettings_complete h, Env.get_assign_ne _ _ (by decide), androidPlatform, hset]
  split
  · rw [Env.get_assign_self _ (by decide)]
  · rw [genericFlags_get_ne _ (by decide)]

/-- The out folder is named after the platform and the CPU the loader leaves. -/
theorem finishSettings_out {env : Env} (h : complete (finishSettings arg env).1) :
    (finishSettings arg env).1.get "LIBAROMA_OUT" = some (outName arg (finishSettings arg env).1) := by
  have hne : ∀ e : Env, outName arg e ≠ [] := fun e => List.cons_ne_nil _ _
  have hname : ∀ (e : Env) (x : Str), outName arg (e.assign "LIBAROMA_OUT" x) = outName arg e := by
    intro e x
    unfold outName
    rw [Env.text_assign_ne _ _ (by decide), Env.text_assign_ne _ _ (by decide)]
  rw [finishSettings_complete h, hname, Env.get_assign_self _ (hne _)]

theorem finishSettings_flags {env : Env} (h : complete (finishSettings arg env).1) :
    (finishSettings arg env).1.text "LA_GENERIC_CFLAGS" =
      env.text "LA_GENERIC_CFLAGS" ++ addedFlags env := by
  rw [finishSettings_complete h, Env.text_assign_ne _ _ (by decide),
    Env.text_congr (androidPlatform_get_ne _ (by decide) (by decide)), genericFlags_text]

/-- Nothing is missing afterwards when nothing was missing after the loop. -/
theorem complete_finishSettings {env : Env} (h : complete env) :
    complete (finishSettings arg env).1 := by
  have heq : (finishSettings arg env).1 = (androidPlatform (genericFlags env)).assign "LIBAROMA_OUT"
      (outName arg (androidPlatform (genericFlags env))) := by
    rw [finishSettings, if_neg h.1, if_neg h.2]
  have hplatform : (androidPlatform (genericFlags env)).text "LIBAROMA_PLATFORM" ≠ [] := by
    rw [androidPlatform]
    split
    · rw [Env.text_assign_ne _ _ (by decide), Env.text_assign_self]
      decide
    · rw [Env.text_congr (genericFlags_get_ne env (by decide))]
      exact h.2
  rw [heq, complete, Env.text_assign_ne _ _ (by decide), Env.text_assign_ne _ _ (by decide),
    Env.text_congr (androidPlatform_get_ne _ (by decide) (by decide)),
    Env.text_congr (genericFlags_get_ne env (by decide))]
  exact ⟨h.1, hplatform⟩

theorem isSet_congr {env env' : Env} {name : Str} (h : env'.get name = env.get name)
    (value : Str) : isSet env' name value = isSet env name value := by
  rw [isSet, isSet, Env.text_congr h]

theorem addedFlags_congr {env env' : Env}
    (h : ∀ v, settingVar v = true → fold v ≠ fold "LIBAROMA_PLATFORM".toList →
      fold v ≠ fold "LIBAROMA_PLATFORM_ANDROID".toList → fold v ≠ fold "LIBAROMA_OUT".toList →
      env'.get v = env.get v) : addedFlags env' = addedFlags env := by
  rw [addedFlags, addedFlags,
    isSet_congr (h "LIBAROMA_DEBUG" (by decide) (by decide) (by decide) (by decide)),
    isSet_congr (h "LIBAROMA_WARNINGS" (by decide) (by decide) (by decide) (by decide)),
    isSet_congr (h "LIBAROMA_CPU" (by decide) (by decide) (by decide) (by decide)),
    isSet_congr (h "LIBAROMA_CPU" (by decide) (by decide) (by decide) (by decide)),
    isSet_congr (h "LIBAROMA_NOWINCONSOLE" (by decide) (by decide) (by decide) (by decide))]

/-- Settings under which the libraries are built alike: the same generic flags and the same
`LIBAROMA_` variables, the flag for android apart, which none of them reads. -/
structure SameBuild (env env' : Env) : Prop where
  get : ∀ v, settingVar v = true → fold v ≠ fold "LIBAROMA_PLATFORM_ANDROID".toList →
    env'.get v = env.get v
  flags : env'.text "LA_GENERIC_CFLAGS" = env.text "LA_GENERIC_CFLAGS"

theorem SameBuild.usable {env env' : Env} (h : SameBuild env env') (husable : Usable env) :
    Usable env' :=
  usable_congr (fun _ hv ha => Env.text_congr (h.get _ hv ha)) (fun _ => h.flags) husable

theorem SameBuild.symm {env env' : Env} (h : SameBuild env env') : SameBuild env' env :=
  ⟨fun v hv ha => (h.get v hv ha).symm, h.flags.symm⟩

theorem SameBuild.trans {e₁ e₂ e₃ : Env} (h : SameBuild e₁ e₂) (h' : SameBuild e₂ e₃) :
    SameBuild e₁ e₃ :=
  ⟨fun v hv ha => (h'.get v hv ha).trans (h.get v hv ha), h'.flags.trans h.flags⟩

theorem SameBuild.test {env env' : Env} (h : SameBuild env env') {v : Str}
    (hv : settingVar v = true) (ha : fold v ≠ fold "LIBAROMA_PLATFORM_ANDROID".toList)
    (value : Str) : isSet env' v value = isSet env v value :=
  isSet_congr (h.get v hv ha) value

/-- Settings that a second load of the same file has left as the first one did.  The flag for android
may differ only when the file does not set the platform itself. -/
structure Reloaded (lines : List Line) (env env' : Env) : Prop extends SameBuild env env' where
  complete : complete env'
  android : lastRead loopRead lines "LIBAROMA_PLATFORM" ≠ none →
    env'.get "LIBAROMA_PLATFORM_ANDROID" = env.get "LIBAROMA_PLATFORM_ANDROID"

/-- A file that sets the platform itself leaves no difference. -/
theorem Reloaded.sameSettings {env env' : Env} (h : Reloaded lines env env')
    (hplatform : lastRead loopRead lines "LIBAROMA_PLATFORM" ≠ none) : SameSettings env env' := by
  intro v hv
  by_cases ha : fold v = fold "LIBAROMA_PLATFORM_ANDROID".toList
  · have hfold : ∀ e : Env, e.get v = e.get "LIBAROMA_PLATFORM_ANDROID" := fun e => congrArg e ha
    rw [hfold, hfold, h.android hplatform]
  · exact h.get v hv ha

/-- **Loading the settings again**, over the `LIBAROMA_` variables the first load left. -/
theorem loadSettings_again (hlines : ∀ l ∈ lines, handsSwitch l.text = false) {env env' : Env}
    (h : complete (loadSettings cmd arg lines env).1)
    (hsame : SameSettings (loadSettings cmd arg lines env).1 env') :
    Reloaded lines (loadSettings cmd arg lines env).1 (loadSettings cmd arg lines env').1 := by
  rw [loadSettings_eq] at h hsame
  rw [loadSettings_eq, loadSettings_eq]
  set l₁ := afterLoop cmd arg lines env with hl₁
  set l₂ := afterLoop cmd arg lines env' with hl₂
  have hread : ∀ v, settingVar v = true → fold v ≠ fold "LIBAROMA_PLATFORM".toList →
      fold v ≠ fold "LIBAROMA_PLATFORM_ANDROID".toList → fold v ≠ fold "LIBAROMA_OUT".toList →
      l₂.get v = l₁.get v := by
    intro v hv hplatform handroid hout
    rw [hl₂, afterLoop_get cmd arg hlines env' hv, hsame v hv,
      finishSettings_read arg l₁ hv hplatform handroid hout, hl₁,
      afterLoop_get cmd arg hlines env hv, outcome_outcome]
  have hplatform₂ : l₂.get "LIBAROMA_PLATFORM" = outcome
      (lastRead loopRead lines "LIBAROMA_PLATFORM") ((finishSettings arg l₁).1.get
        "LIBAROMA_PLATFORM") := by
    rw [hl₂, afterLoop_get cmd arg hlines env' (by decide), hsame _ (by decide)]
  have hplatform₁ : l₁.get "LIBAROMA_PLATFORM" = outcome
      (lastRead loopRead lines "LIBAROMA_PLATFORM") (env.get "LIBAROMA_PLATFORM") := by
    rw [hl₁, afterLoop_get cmd arg hlines env (by decide)]
  have hsource : l₂.text "LIBAROMA_SOURCE" ≠ [] := by
    rw [Env.text_congr (hread _ (by decide) (by decide) (by decide) (by decide)),
      ← Env.text_congr (finishSettings_read arg l₁ (by decide) (by decide) (by decide)
        (by decide))]
    exact h.1
  have hmissing : l₂.text "LIBAROMA_PLATFORM" ≠ [] := by
    cases hlast : lastRead loopRead lines "LIBAROMA_PLATFORM" with
    | none =>
      rw [hlast] at hplatform₂
      rw [Env.text_congr hplatform₂]
      exact h.2
    | some x =>
      rw [hlast] at hplatform₁ hplatform₂
      rw [Env.text_congr (hplatform₂.trans hplatform₁.symm)]
      have hfinal := h.2
      rw [Env.text, finishSettings_platform arg h] at hfinal
      intro hnil
      have hnot : isSet l₁ "LIBAROMA_PLATFORM" "android" = false := by
        rw [isSet, hnil]; rfl
      rw [hnot, if_neg Bool.false_ne_true] at hfinal
      exact hfinal hnil
  have hcomplete : complete (finishSettings arg l₂).1 :=
    complete_finishSettings arg ⟨hsource, hmissing⟩
  have hplatform : (finishSettings arg l₂).1.get "LIBAROMA_PLATFORM" =
      (finishSettings arg l₁).1.get "LIBAROMA_PLATFORM" := by
    rw [finishSettings_platform arg hcomplete]
    cases hlast : lastRead loopRead lines "LIBAROMA_PLATFORM" with
    | none =>
      -- the first load has left no android to be read as linux again
      rw [hlast] at hplatform₂
      have hnot : isSet l₂ "LIBAROMA_PLATFORM" "android" = false := by
        rw [isSet_congr hplatform₂]
        show isSet (finishSettings arg l₁).1 "LIBAROMA_PLATFORM" "android" = false
        rw [isSet, Env.text, finishSettings_platform arg h]
        cases hset : isSet l₁ "LIBAROMA_PLATFORM" "android" with
        | true => rfl
        | false => exact hset
      rw [hnot, if_neg Bool.false_ne_true, hplatform₂]; rfl
    | some x =>
      rw [hlast] at hplatform₁ hplatform₂
      have heq := hplatform₂.trans hplatform₁.symm
      rw [finishSettings_platform arg h, isSet_congr heq, heq]
  have hget : ∀ v, settingVar v = true → fold v ≠ fold "LIBAROMA_PLATFORM".toList →
      fold v ≠ fold "LIBAROMA_PLATFORM_ANDROID".toList → fold v ≠ fold "LIBAROMA_OUT".toList →
      (finishSettings arg l₂).1.get v = (finishSettings arg l₁).1.get v := by
    intro v hv hp ha ho
    rw [finishSettings_read arg l₂ hv hp ha ho, finishSettings_read arg l₁ hv hp ha ho,
      hread v hv hp ha ho]
  refine ⟨⟨?_, ?_⟩, hcomplete, ?_⟩
  · intro v hv ha
    by_cases hp : fold v = fold "LIBAROMA_PLATFORM".toList
    · have hfold : ∀ e : Env, e.get v = e.get "LIBAROMA_PLATFORM" := fun e => congrArg e hp
      rw [hfold, hfold, hplatform]
    · by_cases ho : fold v = fold "LIBAROMA_OUT".toList
      · have hfold : ∀ e : Env, e.get v = e.get "LIBAROMA_OUT" := fun e => congrArg e ho
        rw [hfold, hfold, finishSettings_out arg hcomplete, finishSettings_out arg h, outName,
          outName, Env.text_congr hplatform,
          Env.text_congr (hget "LIBAROMA_CPU" (by decide) (by decide) (by decide) (by decide))]
      · exact hget v hv hp ha ho
  · rw [finishSettings_flags arg hcomplete, finishSettings_flags arg h, addedFlags_congr hread,
      Env.text_congr (afterLoop_flags cmd arg hlines env env')]
  · intro hlast
    obtain ⟨x, hx⟩ := Option.ne_none_iff_exists'.mp hlast
    rw [hx] at hplatform₁ hplatform₂
    rw [finishSettings_android arg hcomplete, finishSettings_android arg h,
      isSet_congr (hplatform₂.trans hplatform₁.symm)]
    cases hset : isSet l₁ "LIBAROMA_PLATFORM" "android" with
    | true => rfl
    | false =>
      show l₂.get "LIBAROMA_PLATFORM_ANDROID" = l₁.get "LIBAROMA_PLATFORM_ANDROID"
      rw [hl₂, afterLoop_get cmd arg hlines env' (by decide), hsame _ (by decide),
        finishSettings_android arg h, hset, if_neg Bool.false_ne_true, hl₁,
        afterLoop_get cmd arg hlines env (by decide), outcome_outcome]

/-- The loader's own part of the settings depends on the settings only. -/
theorem finishSettings_congr {env env' : Env} (h : complete (finishSettings arg env).1)
    (hsame : SameSettings env env') :
    SameSettings (finishSettings arg env).1 (finishSettings arg env').1 := by
  have henv := complete_of_finishSettings h
  have h' : complete (finishSettings arg env').1 := by
    apply complete_finishSettings
    rw [complete, hsame.text (by decide), hsame.text (by decide)]
    exact henv
  have hplatform : (finishSettings arg env').1.get "LIBAROMA_PLATFORM" =
      (finishSettings arg env).1.get "LIBAROMA_PLATFORM" := by
    rw [finishSettings_platform arg h, finishSettings_platform arg h',
      isSet_congr (hsame "LIBAROMA_PLATFORM" (by decide)), hsame _ (by decide)]
  have hread : ∀ v, settingVar v = true → fold v ≠ fold "LIBAROMA_PLATFORM".toList →
      fold v ≠ fold "LIBAROMA_PLATFORM_ANDROID".toList → fold v ≠ fold "LIBAROMA_OUT".toList →
      (finishSettings arg env').1.get v = (finishSettings arg env).1.get v := by
    intro v hv hp ha ho
    rw [finishSettings_read arg env' hv hp ha ho, finishSettings_read arg env hv hp ha ho,
      hsame v hv]
  intro v hv
  by_cases hp : fold v = fold "LIBAROMA_PLATFORM".toList
  · have hfold : ∀ e : Env, e.get v = e.get "LIBAROMA_PLATFORM" := fun e => congrArg e hp
    rw [hfold, hfold, hplatform]
  · by_cases ha : fold v = fold "LIBAROMA_PLATFORM_ANDROID".toList
    · have hfold : ∀ e : Env, e.get v = e.get "LIBAROMA_PLATFORM_ANDROID" :=
        fun e => congrArg e ha
      rw [hfold, hfold, finishSettings_android arg h, finishSettings_android arg h',
        isSet_congr (hsame "LIBAROMA_PLATFORM" (by decide)), hsame _ (by decide)]
    · by_cases ho : fold v = fold "LIBAROMA_OUT".toList
      · have hfold : ∀ e : Env, e.get v = e.get "LIBAROMA_OUT" := fun e => congrArg e ho
        have hcpu := hread "LIBAROMA_CPU" (by decide) (by decide) (by decide) (by decide)
        rw [hfold, hfold, finishSettings_out arg h, finishSettings_out arg h', outName, outName,
          Env.text_congr hplatform, Env.text_congr hcpu]
      · exact hread v hv hp ha ho

/-- **The settings loaded** depend on the settings before only. -/
theorem loadSettings_congr (hlines : ∀ l ∈ lines, handsSwitch l.text = false) {env env' : Env}
    (h : complete (loadSettings cmd arg lines env).1) (hsame : SameSettings env env') :
    SameSettings (loadSettings cmd arg lines env).1 (loadSettings cmd arg lines env').1 := by
  rw [loadSettings_eq] at h
  rw [loadSettings_eq, loadSettings_eq]
  refine finishSettings_congr arg h fun v hv => ?_
  rw [afterLoop_get cmd arg hlines env hv, afterLoop_get cmd arg hlines env' hv, hsame v hv]

theorem finishSettings_of_incomplete {env : Env} (h : ¬ complete env) :
    (finishSettings arg env).1 = env := by
  rw [finishSettings]
  split
  · rfl
  · rename_i hsource
    split
    · rfl
    · rename_i hplatform
      exact absurd ⟨hsource, hplatform⟩ h

/-- They do so even when something is missing. -/
theorem loadSettings_sameSettings (hlines : ∀ l ∈ lines, handsSwitch l.text = false)
    {env env' : Env} (hsame : SameSettings env env') :
    SameSettings (loadSettings cmd arg lines env).1 (loadSettings cmd arg lines env').1 := by
  by_cases h : complete (loadSettings cmd arg lines env).1
  · exact loadSettings_congr cmd arg hlines h hsame
  · have hloop : SameSettings (afterLoop cmd arg lines env) (afterLoop cmd arg lines env') := by
      intro v hv
      rw [afterLoop_get cmd arg hlines env hv, afterLoop_get cmd arg hlines env' hv, hsame v hv]
    rw [loadSettings_eq] at h
    have hleft : ¬ complete (afterLoop cmd arg lines env) :=
      fun hcon => h (complete_finishSettings arg hcon)
    have hright : ¬ complete (afterLoop cmd arg lines env') := by
      rw [complete, hloop.text (by decide), hloop.text (by decide)]
      exact hleft
    rw [loadSettings_eq, loadSettings_eq, finishSettings_of_incomplete arg hleft,
      finishSettings_of_incomplete arg hright]
    exact hloop

/-- The generic flags go with the settings they are loaded with. -/
theorem sameBuild_of_loaded (hlines : ∀ l ∈ lines, handsSwitch l.text = false) {env env' : Env}
    (h : complete (loadSettings cmd arg lines env).1)
    (hsame : SameSettings (loadSettings cmd arg lines env).1 (loadSettings cmd arg lines env').1) :
    SameBuild (loadSettings cmd arg lines env).1 (loadSettings cmd arg lines env').1 := by
  have h' : complete (loadSettings cmd arg lines env').1 := by
    rw [complete, hsame.text (by decide), hsame.text (by decide)]
    exact h
  refine ⟨fun v hv _ => hsame v hv, ?_⟩
  rw [loadSettings_eq] at h h' hsame
  rw [loadSettings_eq] at hsame
  rw [loadSettings_eq, loadSettings_eq, finishSettings_flags arg h, finishSettings_flags arg h',
    Env.text_congr (afterLoop_flags cmd arg hlines env env'), addedFlags_congr]
  intro v hv hp ha ho
  rw [← finishSettings_read arg _ hv hp ha ho, hsame v hv, finishSettings_read arg _ hv hp ha ho]

/-- Settings from one file that are alike are usable together. -/
theorem usable_of_loaded (hlines : ∀ l ∈ lines, handsSwitch l.text = false) {env env' : Env}
    (hsame : SameSettings (loadSettings cmd arg lines env).1 (loadSettings cmd arg lines env').1)
    (h : Usable (loadSettings cmd arg lines env).1) : Usable (loadSettings cmd arg lines env').1 :=
  usable_congr (fun _ hv _ => hsame.text hv)
    (fun hcomplete => (sameBuild_of_loaded cmd arg hlines hcomplete hsame).flags) h

/-- The file sets a variable. -/
def Sets (lines : List Line) (v : Str) : Prop := ∃ x ≠ [], lastRead loopRead lines v = some x

theorem Sets.ne_none {lines : List Line} {v : Str} (h : Sets lines v) :
    lastRead loopRead lines v ≠ none := by
  obtain ⟨x, _, hx⟩ := h
  rw [hx]
  exact Option.some_ne_none x

end Again

/-! ### Settings and the switches of `set` -/

end Atools
