import Atools.Alibs
import Atools.Settings

/-!
# How `alibs.cmd` reads its arguments

An invocation is an optional configuration name followed by names of libraries.  The script tells
the two apart by looking for a configuration file, and by the variable `CUSTOM_CFG`: as long as
nothing else has a hand in that variable, the configuration name is recognised and shifted away
(`alibs_invoked`).
-/

namespace Atools

open Batch

/-- The configuration name as `_setldr.cmd` gets it. -/
def cfgArg (c : Option Token) : Str := (c.map Token.text).getD []

/-- The arguments as they are typed. -/
def argList (c : Option Token) (names : List Token) : List Str :=
  (c.toList ++ names).map Token.text

theorem cfgArg_none : cfgArg none = [] := rfl

theorem cfgArg_some (t : Token) : cfgArg (some t) = t.text := rfl

theorem argList_some (t : Token) (names : List Token) :
    argList (some t) names = t.text :: names.map Token.text := rfl

theorem argList_none (names : List Token) : argList none names = names.map Token.text := rfl

/-- The name of a library as an argument. -/
def libToken (l : Lib) : Token := ⟨l.name, by cases l <;> decide, by cases l <;> decide⟩

/-- An invocation that means what it says: the configuration name is one, the first library name is
none, and where there is something to tell apart, neither the starting environment nor the
configuration file has a hand in `CUSTOM_CFG`. -/
structure Invoked (sh : Shell) (c : Option Token) (names : List Token) : Prop where
  config : ∀ t ∈ c, sh.exist ("config-".toList ++ t.text ++ ".txt".toList) = true
  first : c = none → ∀ n ∈ names.head?,
    sh.exist ("config-".toList ++ n.text ++ ".txt".toList) = false
  unset : c = none → names ≠ [] → sh.env.get "CUSTOM_CFG" = none
  switches : ∀ l ∈ configLines sh (cfgArg c), handsSwitch l.text = false
  unread : c ≠ none ∨ names ≠ [] → ∀ l ∈ configLines sh (cfgArg c),
    (loopRead l.text).map Prod.fst ≠ some (fold "CUSTOM_CFG".toList)

/-- Without any arguments there is nothing to tell apart. -/
theorem invoked_plain {sh : Shell}
    (hswitches : ∀ l ∈ configLines sh [], handsSwitch l.text = false) : Invoked sh none [] where
  config t ht := absurd ht (Option.not_mem_none t)
  first _ n hn := absurd hn (Option.not_mem_none n)
  unset _ h := absurd rfl h
  switches := hswitches
  unread h := by simp at h

/-- The environment in which the script builds its targets. -/
def alibsEnv (cmd : Interpreter) (args : List Str) (sh : Shell) : Env :=
  (shiftConfig args (alibsSettings cmd args sh)).2.env

/-- The settings file the script loads. -/
def alibsArg (args : List Str) (sh : Shell) : Str :=
  if sh.exist ("config-".toList ++ args.headD [] ++ ".txt".toList) ∨
    (sh.env.get "CUSTOM_CFG").isSome then args.headD [] else []

/-- The settings are loaded once, with `CUSTOM_CFG` set if there is such a file. -/
theorem alibsSettings_setldr (cmd : Interpreter) (args : List Str) (sh : Shell) :
    alibsSettings cmd args sh = setldr cmd (alibsArg args sh)
      { sh with
        env := if sh.exist ("config-".toList ++ args.headD [] ++ ".txt".toList) then
          sh.env.assign "CUSTOM_CFG" "yes" else sh.env } := by
  by_cases hexist : sh.exist ("config-".toList ++ args.headD [] ++ ".txt".toList) = true
  · have hsome : ((sh.env.assign "CUSTOM_CFG" "yes").get "CUSTOM_CFG").isSome = true := by
      rw [Env.get_assign_self _ (by decide)]; rfl
    have harg : alibsArg args sh = args.headD [] := by
      rw [alibsArg, if_pos (Or.inl hexist)]
    rw [harg, alibsSettings]
    simp only [hexist, if_true]
    rw [show (sh.setVar "CUSTOM_CFG".toList "yes".toList).env =
      sh.env.assign "CUSTOM_CFG" "yes" from rfl, if_pos hsome]
    rfl
  · have harg : alibsArg args sh =
        if (sh.env.get "CUSTOM_CFG").isSome then args.headD [] else [] := by
      rw [alibsArg]
      simp only [hexist, Bool.false_eq_true, false_or]
    rw [harg, alibsSettings]
    simp only [if_neg hexist]

theorem alibsSettings_eq (cmd : Interpreter) (args : List Str) (sh : Shell) :
    ∃ env es, alibsSettings cmd args sh =
        { sh with
          env := (loadSettings cmd (alibsArg args sh) (configLines sh (alibsArg args sh)) env).1
          log := sh.log ++ es } ∧
      built es = [] ∧
      loads es = [(resolve sh.cwd (configName (alibsArg args sh)),
        (loadSettings cmd (alibsArg args sh) (configLines sh (alibsArg args sh)) env).1)] ∧
      env = if sh.exist ("config-".toList ++ args.headD [] ++ ".txt".toList) then
        sh.env.assign "CUSTOM_CFG" "yes" else sh.env := by
  obtain ⟨es, heq, hbuilt, hloads⟩ := setldr_eq cmd (alibsArg args sh)
    { sh with
      env := if sh.exist ("config-".toList ++ args.headD [] ++ ".txt".toList) then
        sh.env.assign "CUSTOM_CFG" "yes" else sh.env }
  exact ⟨_, es, (alibsSettings_setldr cmd args sh).trans heq, hbuilt, hloads, rfl⟩

/-- The settings file of a proper invocation is the one its configuration name stands for. -/
theorem Invoked.alibsArg {sh : Shell} {c : Option Token} {names : List Token}
    (h : Invoked sh c names) : alibsArg (argList c names) sh = cfgArg c := by
  cases c with
  | some t =>
    rw [Atools.alibsArg, argList_some, List.headD_cons, if_pos (Or.inl (h.config t rfl))]; rfl
  | none =>
    cases names with
    | nil =>
      rw [argList_none, Atools.alibsArg]
      exact ite_self _
    | cons n names =>
      rw [Atools.alibsArg, if_neg]
      · rfl
      · rw [argList_none, List.map_cons, List.headD_cons, h.first rfl n rfl,
          h.unset rfl (List.cons_ne_nil n names)]
        simp

theorem shiftConfig_fst (args : List Str) (sh : Shell) :
    (shiftConfig args sh).1 =
      if (sh.env.get "CUSTOM_CFG").isSome then args.tail else args := by
  rw [shiftConfig]
  split <;> rfl

/-- Telling the configuration name from the names of libraries. -/
theorem Invoked.shift {sh : Shell} {c : Option Token} {names : List Token}
    (h : Invoked sh c names) (cmd : Interpreter) :
    (shiftConfig (argList c names) (alibsSettings cmd (argList c names) sh)).1 =
      names.map Token.text := by
  obtain ⟨env, es, heq, _, _, henv⟩ := alibsSettings_eq cmd (argList c names) sh
  have hcustom : c ≠ none ∨ names ≠ [] →
      (alibsSettings cmd (argList c names) sh).env.get "CUSTOM_CFG" = env.get "CUSTOM_CFG" := by
    intro hne
    rw [heq, h.alibsArg]
    exact loadSettings_get_of_unread cmd _ env h.switches (h.unread hne) (by decide) (by decide)
  rw [shiftConfig_fst]
  cases c with
  | some t =>
    have hexist := h.config t rfl
    rw [hcustom (Or.inl (Option.some_ne_none t)), henv, argList_some, List.headD_cons, hexist,
      if_pos rfl, Env.get_assign_self _ (by decide)]
    rfl
  | none =>
    cases names with
    | nil => exact ite_self _
    | cons n names =>
      have hexist := h.first rfl n rfl
      have hne := List.cons_ne_nil n names
      rw [hcustom (Or.inr hne), henv, argList_none, List.map_cons, List.headD_cons, hexist,
        if_neg Bool.false_ne_true, h.unset rfl hne]
      rfl

theorem shiftConfig_eq (args : List Str) (sh : Shell) :
    (shiftConfig args sh).2 = { sh with env := (shiftConfig args sh).2.env } := by
  rw [shiftConfig]
  split <;> rfl

/-- Shifting touches `CUSTOM_CFG` only. -/
theorem shiftConfig_get_ne (args : List Str) (sh : Shell) {v : Str}
    (hv : fold v ≠ fold "CUSTOM_CFG".toList) :
    (shiftConfig args sh).2.env.get v = sh.env.get v := by
  rw [shiftConfig]
  split
  · exact Env.get_assign_ne _ _ hv
  · rfl

/-- **The start of `alibs.cmd`.**  A proper invocation loads its settings and comes to its names; it
has reported what it loaded and changed nothing else. -/
theorem alibs_invoked (cmd : Interpreter) {sh : Shell} {c : Option Token} {names : List Token}
    (h : Invoked sh c names) :
    ∃ es, shiftConfig (argList c names) (alibsSettings cmd (argList c names) sh) =
        (names.map Token.text,
          { sh with env := alibsEnv cmd (argList c names) sh, log := sh.log ++ es }) ∧
      built es = [] ∧
      loads es = [(resolve sh.cwd (configName (cfgArg c)),
        (alibsSettings cmd (argList c names) sh).env)] := by
  obtain ⟨env, es, heq, hbuilt, hloads, _⟩ := alibsSettings_eq cmd (argList c names) sh
  refine ⟨es, ?_, hbuilt, ?_⟩
  · rw [Prod.ext_iff]
    refine ⟨h.shift cmd, ?_⟩
    rw [shiftConfig_eq]
    show { alibsSettings cmd (argList c names) sh with env := alibsEnv cmd (argList c names) sh } = _
    rw [heq]
  · rw [heq, hloads, h.alibsArg]

/-! ### The name of the out folder -/

/-- The name of an out folder. -/
def outFolderName (o : Str) : Prop := "out-".toList <+: o

theorem ne_of_outFolderName {o : Str} (h : outFolderName o) (l : Lib) : o ≠ l.name := by
  rintro rfl
  unfold outFolderName at h
  revert h
  cases l <;> decide

theorem outFolderName_of_load {cmd : Interpreter} {arg : Str} {lines : List Line} {env : Env}
    {o : Str} (h : complete (loadSettings cmd arg lines env).1)
    (hout : OutNamed (loadSettings cmd arg lines env).1 o) : outFolderName o := by
  obtain ⟨s, hs⟩ := loadSettings_out h
  have hsegs := hout.2.1
  rw [hs] at hsegs
  exact prefix_of_segs (show plainName "out-".toList = true by decide) hsegs

theorem outFolderName_of_alibs {cmd : Interpreter} {args : List Str} {sh : Shell} {o : Str}
    (h : complete (alibsSettings cmd args sh).env)
    (hout : OutNamed (alibsSettings cmd args sh).env o) : outFolderName o := by
  obtain ⟨env, es, heq, _⟩ := alibsSettings_eq cmd args sh
  rw [heq] at h hout
  exact outFolderName_of_load h hout

theorem alibsEnv_out {cmd : Interpreter} {sh : Shell} {c : Option Token} {names : List Token}
    {o : Str} (h : OutNamed (alibsSettings cmd (argList c names) sh).env o) :
    OutNamed (alibsEnv cmd (argList c names) sh) o := by
  have htext : (alibsEnv cmd (argList c names) sh).text "LIBAROMA_OUT" =
      (alibsSettings cmd (argList c names) sh).env.text "LIBAROMA_OUT" :=
    Env.text_congr (shiftConfig_get_ne _ _ (by decide))
  rw [OutNamed, htext]
  exact h

end Atools
