import Atools.Batch.Text

/-!
# Environment variables and the `set` command

An environment maps variable names, compared without letter case, to values; a variable never holds
the empty text, because `set NAME=` removes it.  `parseSet` is how `set` reads its argument: blanks
before it are skipped, `/a` and `/p` switch to arithmetic and to a prompt, a leading double quote
goes together with the text after the last one, and a name must stand before the first `=`.

`Interpreter` collects what is left open about cmd.exe: what a `set /a` or a `set /p` does to the
environment, what a second expansion makes of `%`, `!`, `^` and the command operators in a text, and
whether the end of a script's `setlocal` also puts the current folder back.
-/

namespace Atools.Batch

/-- Variables by folded name. -/
abbrev Env := Str → Option Str

namespace Env

/-- The value of a variable, if it is defined. -/
def get (env : Env) (name : Str) : Option Str := env (fold name)

/-- The text `%NAME%` or `!NAME!` stands for. -/
def text (env : Env) (name : Str) : Str := (env.get name).getD []

/-- `set NAME=VALUE`; an empty value removes the variable. -/
def assign (env : Env) (name value : Str) : Env :=
  fun n => if n = fold name then (if value = [] then none else some value) else env n

theorem get_assign (env : Env) (name value other : Str) :
    (env.assign name value).get other =
      if fold other = fold name then (if value = [] then none else some value)
      else env.get other := rfl

theorem get_assign_self (env : Env) {name value : Str} (h : value ≠ []) :
    (env.assign name value).get name = some value := by
  rw [get_assign, if_pos rfl, if_neg h]

theorem get_assign_ne (env : Env) {name other : Str} (value : Str) (h : fold other ≠ fold name) :
    (env.assign name value).get other = env.get other := by
  rw [get_assign, if_neg h]

theorem text_assign_self (env : Env) (name value : Str) :
    (env.assign name value).text name = value := by
  rw [text, get_assign, if_pos rfl]
  by_cases h : value = []
  · rw [if_pos h, h]; rfl
  · rw [if_neg h]; rfl

theorem text_assign_ne (env : Env) {name other : Str} (value : Str) (h : fold other ≠ fold name) :
    (env.assign name value).text other = env.text other := by
  rw [text, get_assign_ne env value h]; rfl

theorem text_congr {env env' : Env} {name : Str} (h : env.get name = env'.get name) :
    env.text name = env'.text name := by
  rw [text, h]; rfl

end Env

/-- `%NAME:"=%`, the value without double quotes.  For an undefined variable cmd.exe drops the
`%NAME:` only and leaves the text `"=` standing. -/
def expandDequoted : Option Str → Str
  | none => ['"', '=']
  | some v => dequote v

/-- `!NAME:~0,1!`, the first character; for an undefined variable the text `~0,1` is left. -/
def expandFirst : Option Str → Str
  | none => "~0,1"
  | some v => v.take 1

/-- What `set` is asked to do. -/
inductive SetAction
  | switch (arg : Str)
  | nothing
  | assign (name value : Str)
  deriving DecidableEq

/-- The text up to its last double quote, or all of it when it has none. -/
def upToLastQuote (s : Str) : Str :=
  if '"' ∈ s then (s.rdropWhile (· != '"')).dropLast else s

/-- The two switches of `set`. -/
def isSwitch (arg : Str) : Bool := fold (arg.take 2) == ['/', 'a'] || fold (arg.take 2) == ['/', 'p']

/-- How `set` splits `NAME=VALUE` once blanks, switches and quotes are dealt with.  Without an `=`
it only displays variables, and without a name it reports a syntax error. -/
def splitAssignment (s : Str) : SetAction :=
  match s.takeWhile (· != '='), s.dropWhile (· != '=') with
  | [], _ => .nothing
  | _, [] => .nothing
  | name, _ :: value => .assign name value

/-- How `set` reads its argument. -/
def parseSet (arg : Str) : SetAction :=
  let arg := arg.dropWhile blank
  if isSwitch arg then .switch arg
  else match arg with
    | '"' :: rest => splitAssignment (upToLastQuote rest)
    | _ => splitAssignment arg

/-- What cmd.exe does where nothing the scripts rely on decides it. -/
structure Interpreter where
  /-- The effect of `set /a …` and `set /p …` on the environment. -/
  setSwitch : Str → Env → Env
  /-- What is left of a text holding characters that cmd.exe acts on when it is expanded again. -/
  reexpand : Str → Str
  /-- Whether leaving a `setlocal` also puts the current folder back. -/
  restoresFolder : Bool

/-- An interpreter whose switches and second expansions change nothing. -/
def Interpreter.idle (restoresFolder : Bool) : Interpreter := ⟨fun _ env => env, id, restoresFolder⟩

/-- The `set` command. -/
def runSet (cmd : Interpreter) (arg : Str) (env : Env) : Env :=
  match parseSet arg with
  | .switch a => cmd.setSwitch a env
  | .nothing => env
  | .assign name value => env.assign name value

/-- Only the switches are up to the interpreter. -/
theorem runSet_interp (cmd cmd' : Interpreter) {arg : Str} (env : Env)
    (h : ∀ a, parseSet arg ≠ .switch a) : runSet cmd' arg env = runSet cmd arg env := by
  rw [runSet, runSet]
  cases hp : parseSet arg with
  | switch a => exact absurd hp (h a)
  | nothing => rfl
  | assign name value => rfl

/-! ### Reading `NAME=VALUE` -/

theorem splitAssignment_eq {name : Str} (value : Str) (hname : name ≠ []) (heq : '=' ∉ name) :
    splitAssignment (name ++ '=' :: value) = .assign name value := by
  have hall : ∀ c ∈ name, (c != '=') = true := by
    intro c hc
    have hne : c ≠ '=' := fun e => heq (e ▸ hc)
    simpa using hne
  have htake : (name ++ '=' :: value).takeWhile (· != '=') = name := by
    rw [List.takeWhile_append_of_pos hall]
    simp
  have hdrop : (name ++ '=' :: value).dropWhile (· != '=') = '=' :: value := by
    rw [List.dropWhile_append_of_pos hall]
    simp
  cases name with
  | nil => exact absurd rfl hname
  | cons c cs => simp only [splitAssignment, htake, hdrop]

theorem dropWhile_blank_append_eq (k y : Str) :
    (k ++ '=' :: y).dropWhile blank = k.dropWhile blank ++ '=' :: y := by
  induction k with
  | nil => rfl
  | cons c cs ih =>
    rw [List.cons_append, List.dropWhile_cons, List.dropWhile_cons]
    by_cases hc : blank c = true
    · rw [if_pos hc, if_pos hc, ih]
    · rw [if_neg hc, if_neg hc, List.cons_append]

/-- A switch is two characters long, so the `=` after a name does not make one. -/
theorem isSwitch_append_eq {k : Str} (y : Str) (hk : k ≠ []) :
    isSwitch (k ++ '=' :: y) = isSwitch k := by
  cases k with
  | nil => exact absurd rfl hk
  | cons c cs =>
    cases cs with
    | nil =>
      have heq : Char.toLower '=' = '=' := by decide
      simp [isSwitch, fold, heq]
    | cons d ds => simp [isSwitch]

/-- **How `set` reads `NAME=VALUE`** for a name without `=` and quotes: leading blanks are dropped,
then an empty name is an error and a switch is a switch. -/
theorem parseSet_key {k : Str} (y : Str) (heq : '=' ∉ k) (hquote : '"' ∉ k) :
    parseSet (k ++ '=' :: y) =
      if k.dropWhile blank = [] then .nothing
      else if isSwitch (k.dropWhile blank) then .switch (k.dropWhile blank ++ '=' :: y)
      else .assign (k.dropWhile blank) y := by
  have hsub : k.dropWhile blank ⊆ k := (List.dropWhile_suffix _).subset
  simp only [parseSet, dropWhile_blank_append_eq]
  cases hk : k.dropWhile blank with
  | nil => rfl
  | cons c cs =>
    rw [hk] at hsub
    have hc : c ≠ '"' := fun e => hquote (e ▸ hsub List.mem_cons_self)
    have hsplit := splitAssignment_eq y (List.cons_ne_nil c cs) fun h => heq (hsub h)
    rw [isSwitch_append_eq y (List.cons_ne_nil c cs), if_neg (List.cons_ne_nil c cs)]
    split
    · rfl
    · rw [List.cons_append] at hsplit ⊢
      split
      · rename_i hq
        exact absurd (List.cons.inj hq).1 hc
      · exact hsplit

end Atools.Batch
