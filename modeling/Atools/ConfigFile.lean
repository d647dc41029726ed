import Atools.Dependencies
import Atools.Outside

/-!
# Configuration files as maps

A configuration file is a list of lines, but what is loaded from it depends on less: as long as no two
lines give one variable different values, neither the order of the lines nor their repetition matters
(`loadSettings_lines`).  Settings written line by line as `NAME=VALUE` are the settings every script
loads from then on, until the file is edited again (`written_settings_stay`).
-/

namespace Atools

open Batch

/-! ### Files with the same lines -/

section Agree

variable {env env' : Env}

theorem Agree.text (h : Agree env env') {v : Str} (hv : scratch v = false) :
    env'.text v = env.text v := Env.text_congr (h v hv)

theorem Agree.assign (h : Agree env env') (name x : Str) :
    Agree (env.assign name x) (env'.assign name x) := by
  intro v hv
  rw [Env.get_assign, Env.get_assign]
  split
  · rfl
  · exact h v hv

theorem Agree.isSet (h : Agree env env') (name : Str) (hname : scratch name = false) (x : Str) :
    isSet env' name x = isSet env name x := isSet_congr (h name hname) x

theorem Agree.addFlags (h : Agree env env') (flags : Str) :
    Agree (addFlags flags env) (addFlags flags env') := by
  rw [Atools.addFlags, Atools.addFlags, h.text (by decide)]
  exact h.assign _ _

theorem Agree.ite {a a' b b' : Env} {c c' : Bool} (hc : c' = c) (ha : Agree a a')
    (hb : Agree b b') : Agree (if c then a else b) (if c' then a' else b') := by
  rw [hc]
  cases c with
  | true => exact ha
  | false => exact hb

theorem Agree.genericFlags (h : Agree env env') :
    Agree (genericFlags env) (genericFlags env') := by
  have hdebug := Agree.ite (h.isSet "LIBAROMA_DEBUG" (by decide) "yes")
    (h.addFlags " -g -ggdb") (h.addFlags " -s -O3")
  have hwarnings := Agree.ite (hdebug.isSet "LIBAROMA_WARNINGS" (by decide) "yes")
    (hdebug.addFlags " -Wall -Wextra") (hdebug.addFlags " -w")
  have hneon := Agree.ite (hwarnings.isSet "LIBAROMA_CPU" (by decide) "neon")
    (hwarnings.addFlags " -mfloat-abi=hard -mfpu=neon -D__ARM_NEON") hwarnings
  have hsse := Agree.ite (hneon.isSet "LIBAROMA_CPU" (by decide) "sse2")
    (hneon.addFlags " -msse2 -D__i386") hneon
  exact Agree.ite (hsse.isSet "LIBAROMA_NOWINCONSOLE" (by decide) "yes")
    (hsse.addFlags " -mwindows") hsse

theorem Agree.androidPlatform (h : Agree env env') :
    Agree (androidPlatform env) (androidPlatform env') :=
  Agree.ite (h.isSet _ (by decide) _) ((h.assign _ _).assign _ _) h

/-- What comes after the loop does not look at the variables the loop uses for itself. -/
theorem Agree.finishSettings (h : Agree env env') (arg : Str) :
    Agree (finishSettings arg env).1 (finishSettings arg env').1 := by
  have hflags := h.genericFlags.androidPlatform
  rw [Atools.finishSettings, Atools.finishSettings, h.text (v := "LIBAROMA_SOURCE") (by decide),
    h.text (v := "LIBAROMA_PLATFORM") (by decide)]
  split
  · exact h
  · split
    · exact h
    · have hname : outName arg (Atools.androidPlatform (Atools.genericFlags env')) =
          outName arg (Atools.androidPlatform (Atools.genericFlags env)) := by
        rw [outName, outName, hflags.text (v := "LIBAROMA_PLATFORM") (by decide),
          hflags.text (v := "LIBAROMA_CPU") (by decide)]
      simp only [hname]
      exact hflags.assign _ _

end Agree

/-- A character of a variable name. -/
def nameChar (c : Char) : Bool := c.isAlphanum || c == '_'

/-- A character a value may have and keep. -/
def valueChar (c : Char) : Bool := lineChar c && c != '=' && c != '"'

/-- A setting that can be written on a line: a name, and a value without blanks around it. -/
structure Setting where
  name : Str
  value : Str
  named : name ≠ []
  valued : value ≠ []
  nameOk : name.all nameChar = true
  valueOk : value.all valueChar = true
  trimmed : trimBlanks value = value

theorem lineChar_of_nameChar {c : Char} (h : nameChar c = true) : lineChar c = true := by
  rw [nameChar, Bool.or_eq_true] at h
  rw [lineChar, Bool.or_eq_true]
  rcases h with h | h
  · exact Or.inl h
  · rw [beq_iff_eq.mp h]
    exact Or.inr (by decide)

/-- `NAME=VALUE` -/
def Setting.line (s : Setting) : Line where
  text := s.name ++ '=' :: s.value
  ok := by
    rw [List.all_append, List.all_cons, Bool.and_eq_true, Bool.and_eq_true]
    refine ⟨?_, by decide, ?_⟩
    · exact List.all_eq_true.mpr fun c hc => lineChar_of_nameChar (List.all_eq_true.mp s.nameOk c hc)
    · refine List.all_eq_true.mpr fun c hc => ?_
      have hvalue := List.all_eq_true.mp s.valueOk c hc
      rw [valueChar, Bool.and_eq_true, Bool.and_eq_true] at hvalue
      exact hvalue.1.1

/-- A name has none of the characters that mean something in a line. -/
theorem Setting.not_mem_name (s : Setting) {c : Char} (hc : nameChar c = false) : c ∉ s.name := by
  intro hmem
  rw [List.all_eq_true.mp s.nameOk c hmem] at hc
  exact Bool.false_ne_true hc.symm

theorem Setting.not_mem_value (s : Setting) {c : Char} (hc : valueChar c = false) :
    c ∉ s.value := by
  intro hmem
  rw [List.all_eq_true.mp s.valueOk c hmem] at hc
  exact Bool.false_ne_true hc.symm

/-- **A written setting** is a plain line. -/
theorem Setting.plain (s : Setting) : PlainLine s.line.text (fold s.name) s.value := by
  have hblank : ∀ c ∈ s.name, blank c = false := by
    intro c hc
    rw [← Bool.not_eq_true, blank, Bool.or_eq_true, beq_iff_eq, beq_iff_eq]
    rintro (rfl | rfl)
    · exact s.not_mem_name (by decide) hc
    · exact s.not_mem_name (by decide) hc
  have hname : dequote (trimBlanks s.name) = s.name := by
    rw [trimBlanks_eq_self hblank, dequote_eq_self (s.not_mem_name (by decide))]
  have hvalue : dequote (trimBlanks s.value) = s.value := by
    rw [s.trimmed, dequote_eq_self (s.not_mem_value (by decide))]
  refine ⟨s.name, s.value, rfl, s.not_mem_name (by decide), s.not_mem_value (by decide), hvalue,
    s.valued, ?_⟩
  rw [hname]
  refine ⟨rfl, s.named, fun hhash => ?_, dropWhile_blank_eq_self hblank, ?_⟩
  · exact s.not_mem_name (by decide) (List.mem_of_head? hhash)
  · -- a switch starts with a slash
    rw [← Bool.not_eq_true, isSwitch, Bool.or_eq_true, beq_iff_eq, beq_iff_eq]
    intro hswitch
    have hhead : (fold (s.name.take 2)).head? = some '/' := by
      rcases hswitch with hswitch | hswitch
      · rw [hswitch]; rfl
      · rw [hswitch]; rfl
    rw [fold, List.head?_map, Option.map_eq_some_iff] at hhead
    obtain ⟨c, hc, hlower⟩ := hhead
    obtain rfl := eq_of_toLower_eq hlower (Or.inl (by decide))
    exact s.not_mem_name (by decide) (List.mem_of_mem_take (List.mem_of_head? hc))

/-- The value written last for a variable. -/
def written (ss : List Setting) (v : Str) : Option Str :=
  lastWrite (fold v) (ss.map fun s => (fold s.name, s.value))

theorem lastRead_written (ss : List Setting) (v : Str) :
    lastRead loopRead (ss.map Setting.line) v = written ss v := by
  have hread : (fun l : Line => loopRead l.text) ∘ Setting.line =
      fun s => some (fold s.name, s.value) := by
    funext s
    exact (both_read_of_plain s.plain).1
  rw [lastRead, List.filterMap_map, hread, List.filterMap_eq_map', written]

theorem handsSwitch_of_loopRead {l v x : Str} (h : loopRead l = some (v, x)) :
    handsSwitch l = false := by
  unfold loopRead at h
  unfold handsSwitch
  split at h
  · rename_i heq
    rw [heq]
  · exact absurd h (by simp)

/-- No written line hands `set` a switch. -/
theorem handsSwitch_written (ss : List Setting) :
    ∀ l ∈ ss.map Setting.line, handsSwitch l.text = false := by
  intro l hl
  obtain ⟨s, _, rfl⟩ := List.mem_map.mp hl
  exact handsSwitch_of_loopRead (both_read_of_plain s.plain).1

/-- **Written settings are loaded.** -/
theorem loadSettings_written (cmd : Interpreter) (arg : Str) (ss : List Setting) (env : Env)
    {v : Str} (hscratch : scratch v = false) (hown : ownVariable v = false) :
    (loadSettings cmd arg (ss.map Setting.line) env).1.get v = (written ss v).or (env.get v) := by
  rw [loadSettings_get cmd arg env (handsSwitch_written ss) hscratch hown, lastRead_written]
  cases hw : written ss v with
  | none => rfl
  | some x =>
    obtain ⟨s, _, heq⟩ := List.mem_map.mp (mem_of_lastWrite hw)
    have hx : x ≠ [] := by
      rw [← (Prod.mk.inj heq).2]
      exact s.valued
    rw [outcome, if_neg hx, Option.some_or]

/-- **From the file to the scripts.**  Settings written to a configuration file are what is loaded with
that configuration after any run of builds, edits of other files and source changes; every other
variable is what it was in the environment the scripts are called in. -/
theorem written_settings_stay {cmd : Interpreter} {r : Path} {e : Env} {sh sh' : Shell}
    {c : Option Token} {n v : Str} {steps : List Step} {ss : List Setting} (h : Repository r e sh)
    (hn : segs (configName (cfgArg c)) = [.down n]) (hfile : (sh.disk.file r n).isSome)
    (hfit : AllFit (runStep cmd) (StepFits cmd) (.edit c (ss.map Setting.line) :: steps) sh)
    (hkept : ∀ a ∈ steps, ¬ a.edits n)
    (hrun : runs (runStep cmd) (.edit c (ss.map Setting.line) :: steps) sh = sh')
    (hscratch : scratch v = false) (hown : ownVariable v = false) :
    (loadedEnv cmd c sh').get v = (written ss v).or (e.get v) := by
  obtain ⟨hedit, hrest⟩ := hfit
  have hrepo := h.step hedit
  obtain ⟨_, hsame⟩ := sameOutside_of_run hrepo hrest
  have hloaded := @SameOutside.loadedEnv cmd _ _ _ _ hsame hrepo.cwd c n hn
    fun ⟨a, ha, hedits⟩ => hkept a ha hedits
  rw [← hrun, runs, hloaded, loadedEnv, configLines_edit h _ hn hfile, hrepo.env]
  exact loadSettings_written cmd _ ss e hscratch hown

/-- The small configuration with jpeg as well. -/
def jpegSettings : List Setting :=
  [⟨"LIBAROMA_SOURCE".toList, "D:\\projects\\libaroma".toList, by decide, by decide, by decide,
      by decide, by decide⟩,
    ⟨"LIBAROMA_PLATFORM".toList, "sdl".toList, by decide, by decide, by decide, by decide, by decide⟩,
    ⟨"LIBAROMA_GCC".toList, "gcc.exe".toList, by decide, by decide, by decide, by decide, by decide⟩,
    ⟨"LIBAROMA_AR".toList, "ar.exe".toList, by decide, by decide, by decide, by decide, by decide⟩,
    ⟨"LIBAROMA_JPEG".toList, "yes".toList, by decide, by decide, by decide, by decide, by decide⟩]

/-- They are written to `config.txt` and used by `abuild.cmd`. -/
theorem written_settings_stay_jpeg :
    (loadedEnv (.idle true) none (runs (runStep (.idle true))
      [.edit none (jpegSettings.map Setting.line), .abuild none] smallRepository)).get
        "LIBAROMA_JPEG" = some "yes".toList := by
  have hrepo := smallRepository_fresh.repository
  have hfile : (smallRepository.disk.file ["atools".toList] "config.txt".toList).isSome := by
    decide +kernel
  set edited := runStep (.idle true) (.edit none (jpegSettings.map Setting.line)) smallRepository
  have hlines : configLines edited [] = jpegSettings.map Setting.line :=
    configLines_edit hrepo (c := none) _ (n := "config.txt".toList) (by decide) hfile
  have hswitches : ∀ l ∈ configLines edited [], handsSwitch l.text = false := by
    rw [hlines]
    exact handsSwitch_written jpegSettings
  have hsettings : Usable (loadedEnv (.idle true) none edited) ∧
      OutNamed (loadedEnv (.idle true) none edited) "out-sdl_".toList := by
    rw [loadedEnv, cfgArg_none, hlines]
    show Usable (loadSettings _ _ _ fun _ => none).1 ∧
      OutNamed (loadSettings _ _ _ fun _ => none).1 _
    decide +kernel
  have hfits : AllFit (runStep (.idle true)) (StepFits (.idle true))
      [.edit none (jpegSettings.map Setting.line), .abuild none] smallRepository :=
    ⟨⟨"config.txt".toList, by decide⟩, ⟨invoked_plain hswitches, hsettings.1,
      fun _ => ⟨_, hsettings.2⟩⟩, trivial⟩
  have hkept : ∀ a ∈ [Step.abuild none], ¬ a.edits "config.txt".toList := by
    intro a ha
    rw [List.mem_singleton.mp ha]
    exact id
  rw [written_settings_stay hrepo (c := none) (n := "config.txt".toList) (by decide) hfile hfits
    hkept rfl (by decide) (by decide)]
  decide

end Atools
