import Atools.Batch.Environment
import Atools.Batch.FileTree
import Atools.Batch.LastWrite

/-!
# The state the scripts work on

A `Shell` is what a script sees and changes: the environment, the current folder, the disk, what has
been reported so far, and a clock that stamps every object file with the compiler call that wrote
it.  The libaroma source tree lies outside the disk: `sources` says which files a folder text lists.

The compiler and the archiver are modelled by what they leave behind.  A call with `-c` writes one
object per source into the current folder, a later source overwriting an earlier one of the same
object name.  `ar -r -c -s` replaces or adds the named members and keeps the others; given a name
that is no file it stops without writing.  `Usable` settings name the two programs.

Configuration lines and script arguments hold none of the characters cmd.exe itself acts on: `Line`
and `Token` carry the proof.  Names listed from a folder may hold them, and what is left of such a
name is up to the `Interpreter`.
-/

namespace Atools

open Batch

/-- The characters a configuration line is made of. -/
def lineChar (c : Char) : Bool := c.isAlphanum || c ∈ " \t=#\"\\/:.,-_+".toList

/-- One line of a configuration file. -/
structure Line where
  text : Str
  ok : text.all lineChar = true

/-- The characters a script argument may not hold: what separates arguments, quotes, wildcards and
the operators of cmd.exe. -/
def argSpecial (c : Char) : Bool := c ∈ " \t,;=\"*?&|<>^()%!".toList

/-- One argument of a script, as it is typed. -/
structure Token where
  text : Str
  nonempty : text ≠ []
  ok : text.all (!argSpecial ·) = true

/-- An object file or an archive member: the source and the flags it was compiled from, and the
compiler call that wrote it. -/
structure Obj where
  src : Str
  flags : List Str
  stamp : ℕ
  deriving DecidableEq

/-- The members of an archive by name. -/
abbrev Members := AList fun _ : Str => Obj

inductive File
  | text (lines : List Line)
  | object (o : Obj)
  | archive (members : Members)
  | other

/-- What a file becomes as an archive member; of a file that is no object nothing is known. -/
def File.member : File → Obj
  | .object o => o
  | _ => ⟨[], [], 0⟩

/-- What the scripts report, together with the settings each one loads. -/
inductive Event
  | loaded (cfg : Path) (env : Env)
  | notSet (name : Str)
  | building (i : Str)
  | invalidName (i : Str)
  | notNeeded
  | buildingLibaroma
  | buildingApp (name : Str)

/-- The libaroma sources: the files each folder lists.  A file name holds no separator. -/
structure SourceTree where
  files : Str → List Str
  plain : ∀ folder, ∀ n ∈ files folder, n.all (!sep ·) = true

structure Shell where
  env : Env
  cwd : Path
  disk : Disk File
  log : List Event
  clock : ℕ
  sources : SourceTree

/-- The file name at the end of a path text. -/
def baseName (s : Str) : Str := s.rtakeWhile fun c => !sep c

/-- A file name without its extension. -/
def dropExtension (s : Str) : Str :=
  if '.' ∈ s then (s.rdropWhile (· != '.')).dropLast else s

/-- A file name without its suffix, as the compiler sees it: a dot at the front starts none. -/
def dropSuffix (s : Str) : Str := if '.' ∈ s.tail then dropExtension s else s

/-- The object file the compiler writes for a source. -/
def objectName (src : Str) : Str := fold (dropSuffix (baseName src)) ++ ".o".toList

theorem baseName_append (s t : Str) {c : Char} (hc : sep c = true) :
    baseName (s ++ c :: t) = baseName t := by
  have key : ∀ l : Str, (l ++ c :: s.reverse).takeWhile (fun c => !sep c)
      = l.takeWhile fun c => !sep c := by
    intro l
    induction l with
    | nil => simp [hc]
    | cons x xs ih => rw [List.cons_append, List.takeWhile_cons, List.takeWhile_cons, ih]
  have hrev : (s ++ c :: t).reverse = t.reverse ++ c :: s.reverse := by simp
  rw [baseName, List.rtakeWhile, hrev, key]; rfl

/-- The folder a source lies in does not matter for its object. -/
theorem objectName_append (s t : Str) : objectName (s ++ '\\' :: t) = objectName t := by
  rw [objectName, baseName_append s t (by decide)]; rfl

/-- What `%%F` gives for a listed name in `for /f "tokens=*" … do call set`: a name that starts with
`;` is a comment, leading blanks are delimiters, and a name with characters cmd.exe acts on is
expanded again. -/
def listedName (cmd : Interpreter) (acts : Char → Bool) (n : Str) : Option Str :=
  if n.head? = some ';' then none
  else match n.dropWhile blank with
    | [] => none
    | c :: cs => some (if (c :: cs).any acts then cmd.reexpand (c :: cs) else c :: cs)

/-- What cmd.exe acts on inside quotes. -/
def actsQuoted (c : Char) : Bool := c ∈ "%!^".toList

/-- What cmd.exe acts on outside quotes. -/
def actsBare (c : Char) : Bool := c ∈ "%!^&|<>".toList

namespace Shell

def say (sh : Shell) (e : Event) : Shell := { sh with log := sh.log ++ [e] }

def setVar (sh : Shell) (name value : Str) : Shell := { sh with env := sh.env.assign name value }

/-- `if exist FOLDER\`. -/
def isDir (sh : Shell) (s : Str) : Bool := sh.disk.isDir (resolve sh.cwd s)

/-- `if exist NAME`. -/
def exist (sh : Shell) (s : Str) : Bool := sh.disk.existsAt (resolve sh.cwd s)

/-- `cd`, which stays where it is when there is no such folder. -/
def cd (sh : Shell) (s : Str) : Shell :=
  if sh.isDir s then { sh with cwd := resolve sh.cwd s } else sh

/-- `mkdir NAME`. -/
def mkdir (sh : Shell) (s : Str) : Shell :=
  { sh with disk := sh.disk.mkdir (resolve sh.cwd s) }

/-- `rd /s /q NAME`. -/
def rd (sh : Shell) (s : Str) : Shell :=
  { sh with disk := sh.disk.rd sh.cwd (resolve sh.cwd s) }

/-- A compiler call with `-c`. -/
def compile (sh : Shell) (flags srcs : List Str) : Shell :=
  { sh with
    disk := sh.disk.put sh.cwd
      (srcs.map fun s => (objectName s, File.object ⟨s, flags, sh.clock⟩))
    clock := sh.clock + 1 }

/-- The names `dir /b /a:-d "*.o"` lists, as the scripts collect them. -/
def objectFiles (cmd : Interpreter) (sh : Shell) : List Str :=
  match sh.disk.folder sh.cwd with
  | none => []
  | some f =>
    (f.keys.filter fun n => ".o".toList.isSuffixOf n).filterMap (listedName cmd actsBare)

/-- The archive `ar` would extend, if the target can be one. -/
def archiveAt (sh : Shell) (p : Path) : Option Members :=
  match sh.disk.fileAt p with
  | none => some ∅
  | some (.archive a) => some a
  | some _ => none

/-- `ar -r -c -s TARGET NAMES…`; the names are pasted into the command unquoted, so a blank in one
of them cuts it in two. -/
def ar (sh : Shell) (target : Str) (names : List Str) : Shell :=
  let args := names.flatMap (fields blank)
  if args.all fun n => (sh.disk.file sh.cwd n).isSome then
    let ms := args.filterMap fun n => (sh.disk.file sh.cwd n).map fun x => (n, x.member)
    match sh.archiveAt (resolve sh.cwd target) with
    | none => sh
    | some a =>
      { sh with disk := sh.disk.write (resolve sh.cwd target) (.archive (writeAll a ms)) }
  else sh

/-- The archiver writes its target, or nothing. -/
theorem ar_cases (sh : Shell) (target : Str) (names : List Str) :
    ∃ d, sh.ar target names = { sh with disk := d } ∧
      (d = sh.disk ∨ ∃ a, d = sh.disk.write (resolve sh.cwd target) (.archive a)) := by
  simp only [ar]
  split
  · split
    · exact ⟨sh.disk, rfl, Or.inl rfl⟩
    · exact ⟨_, rfl, Or.inr ⟨_, rfl⟩⟩
  · exact ⟨sh.disk, rfl, Or.inl rfl⟩

/-! Of all these only `say` reports anything. -/

@[simp] theorem log_cd (sh : Shell) (s : Str) : (sh.cd s).log = sh.log := by
  rw [cd]
  split <;> rfl

@[simp] theorem log_ar (sh : Shell) (target : Str) (names : List Str) :
    (sh.ar target names).log = sh.log := by
  obtain ⟨d, hd, _⟩ := sh.ar_cases target names
  rw [hd]

end Shell

/-- Leaving a script ends its `setlocal`: the caller's environment comes back. -/
def leave (cmd : Interpreter) (outer inner : Shell) : Shell :=
  { inner with
    env := outer.env
    cwd := if cmd.restoresFolder then outer.cwd else inner.cwd }

/-- The settings files loaded in the course of a run, with the settings they led to. -/
def loads (log : List Event) : List (Path × Env) :=
  log.filterMap fun
    | .loaded p env => some (p, env)
    | _ => none

/-- The libraries a run has set about building. -/
def built (log : List Event) : List Str :=
  log.filterMap fun
    | .building i => some i
    | _ => none

end Atools
