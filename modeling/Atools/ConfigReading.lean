import Atools.Setldr
import Mathlib.Data.Fintype.EquivFin

/-!
# What the settings loader makes of a configuration file

`refRead` is the intended reading of a `KEY=VALUE` line: the key is the text before the first `=`,
the value the whole text after it, blanks around both and all double quotes removed; comments, lines
without a key and lines without a value are skipped.  `loopRead` is the reading the loop of
`_setldr.cmd` really gives a line, from its first two fields between runs of `=`.

A run of the loop leaves every variable with the last value `loopRead` gives it (`configLoop_get`).
So a file is read as intended exactly when, for every variable, the last line of either reading
carries the same text and no line hands `set` one of its switches (`readsRight_iff`).  A single line
is an assignment of the same value under both readings exactly when it is plain
(`both_read_iff`): one `=` only, a value that is more than blanks and quotes, and a key that does
not turn into a comment, a switch or a name with a leading blank when its quotes are gone.
-/

namespace Atools

open Batch

/-! ### The two readings of a line -/

/-- The variable and the text the loop assigns for a line; the empty text removes the variable. -/
def loopRead (l : Str) : Option (Str × Str) :=
  match (readLine l).map parseSet with
  | some (.assign n x) => some (fold n, x)
  | _ => none

/-- The line makes the loop call `set /a` or `set /p`. -/
def handsSwitch (l : Str) : Bool :=
  match (readLine l).map parseSet with
  | some (.switch _) => true
  | _ => false

/-- The intended reading of a line. -/
def refRead (l : Str) : Option (Str × Str) :=
  match l.dropWhile (· != '=') with
  | [] => none
  | _ :: post =>
    if trimBlanks (l.takeWhile (· != '=')) = [] then none
    else if (l.dropWhile blank).head? = some '#' then none
    else if dequote (trimBlanks post) = [] then none
    else some (fold (dequote (trimBlanks (l.takeWhile (· != '=')))), dequote (trimBlanks post))

/-- The text the last line of a reading assigns to a variable. -/
def lastRead (read : Str → Option (Str × Str)) (lines : List Line) (v : Str) : Option Str :=
  lastWrite (fold v) (lines.filterMap fun l => read l.text)

/-- The intended value of a variable: what the last line that assigns it says, else its old one. -/
def refValue (env : Env) (lines : List Line) (v : Str) : Option Str :=
  (lastRead refRead lines v).or (env.get v)

/-- The file is read as intended, from every environment and whatever the switches of `set` do. -/
def ReadsRight (lines : List Line) : Prop :=
  ∀ (cmd : Interpreter) (env : Env) (v : Str), v ≠ [] → scratch v = false →
    (configLoop cmd env lines).get v = refValue env lines v

/-- What a variable is left with after a text is assigned to it, or not. -/
def outcome : Option Str → Option Str → Option Str
  | none, old => old
  | some x, _ => if x = [] then none else some x

/-! ### A run of the loop -/

theorem configStep_get (cmd : Interpreter) (env : Env) (l v : Str) (hl : handsSwitch l = false)
    (hv : scratch v = false) :
    (configStep cmd env l).get v =
      outcome (lastWrite (fold v) (loopRead l).toList) (env.get v) := by
  obtain ⟨env', hag, heq⟩ := configStep_eq env l
  rw [heq]
  cases hr : readLine l with
  | none => simpa [loopRead, hr, lastWrite, outcome] using hag v hv
  | some arg =>
    cases hp : parseSet arg with
    | switch a => simp [handsSwitch, hr, hp] at hl
    | nothing => simpa [loopRead, hr, hp, runSet, lastWrite, outcome] using hag v hv
    | assign n x =>
      simp only [runSet, hp, loopRead, hr, Option.map_some, Option.toList_some,
        lastWrite_singleton, Env.get_assign]
      by_cases hn : fold v = fold n
      · rw [if_pos hn, if_pos hn.symm]; rfl
      · rw [if_neg hn, if_neg (Ne.symm hn)]; exact hag v hv

theorem outcome_or (x y old : Option Str) :
    outcome (x.or y) old = outcome x (outcome y old) := by
  cases x with
  | none => rfl
  | some x => rfl

/-- **A run of the loop.**  Every variable the loop does not use itself is left with the last text a
line assigns to it. -/
theorem configLoop_get (cmd : Interpreter) (env : Env) (lines : List Line) (v : Str)
    (hlines : ∀ l ∈ lines, handsSwitch l.text = false) (hv : scratch v = false) :
    (configLoop cmd env lines).get v = outcome (lastRead loopRead lines v) (env.get v) := by
  induction lines generalizing env with
  | nil => rfl
  | cons l ls ih =>
    have hstep := configStep_get cmd env l.text v (hlines l List.mem_cons_self) hv
    have hsplit : lastRead loopRead (l :: ls) v =
        (lastRead loopRead ls v).or (lastWrite (fold v) (loopRead l.text).toList) := by
      rw [lastRead, List.filterMap_cons]
      cases loopRead l.text with
      | none => simp [lastRead, lastWrite]
      | some w => simp [lastRead, lastWrite]
    have hrun := ih (configStep cmd env l.text) fun l' hl' =>
      hlines l' (List.mem_cons_of_mem l hl')
    rw [configLoop, List.foldl_cons, ← configLoop, hrun, hstep, hsplit, outcome_or]

/-- A value of the intended reading is never empty. -/
theorem refRead_value_ne_nil {l v x : Str} (h : refRead l = some (v, x)) : x ≠ [] := by
  unfold refRead at h
  split at h
  · simp at h
  · split at h
    · simp at h
    · split at h
      · simp at h
      · split at h
        · simp at h
        · rename_i hne
          rw [Option.some.injEq, Prod.mk.injEq] at h
          exact h.2 ▸ hne

theorem lastRead_refRead_ne_nil {lines : List Line} {v x : Str}
    (h : lastRead refRead lines v = some x) : x ≠ [] := by
  obtain ⟨l, _, hl⟩ := List.mem_filterMap.mp (mem_of_lastWrite h)
  exact refRead_value_ne_nil hl

/-! ### A switch of `set` spoils a file -/

/-- A `set` switch that sets one variable to `x`. -/
def marking (f : Str) : Interpreter := ⟨fun _ env => env.assign f ['x'], id, false⟩

theorem configStep_marking (f : Str) (env : Env) (l : Str) (hf : scratch f = false)
    (hl : lastWrite (fold f) (loopRead l).toList = none) :
    (configStep (marking f) env l).get f =
      if handsSwitch l = true then some ['x'] else env.get f := by
  by_cases hs : handsSwitch l = true
  · rw [if_pos hs]
    obtain ⟨env', _, heq⟩ := configStep_eq env l
    rw [heq]
    unfold handsSwitch at hs
    cases hr : readLine l with
    | none => simp [hr] at hs
    | some arg =>
      cases hp : parseSet arg with
      | switch a => simp [runSet, hp, marking, Env.get_assign]
      | nothing => simp [hr, hp] at hs
      | assign n x => simp [hr, hp] at hs
  · rw [if_neg hs, configStep_get _ _ _ _ (by simpa using hs) hf, hl]
    rfl

theorem configLoop_marking (f : Str) (env : Env) (lines : List Line) (hf : scratch f = false)
    (hfree : ∀ l ∈ lines, lastWrite (fold f) (loopRead l.text).toList = none) :
    (configLoop (marking f) env lines).get f =
      if lines.any (fun l => handsSwitch l.text) then some ['x'] else env.get f := by
  induction lines generalizing env with
  | nil => rfl
  | cons l ls ih =>
    have hrun := ih (configStep (marking f) env l.text) fun l' hl' =>
      hfree l' (List.mem_cons_of_mem l hl')
    rw [configLoop, List.foldl_cons, ← configLoop, hrun,
      configStep_marking f env l.text hf (hfree l List.mem_cons_self), List.any_cons]
    by_cases h1 : handsSwitch l.text = true <;>
      by_cases h2 : (ls.any fun l => handsSwitch l.text) = true <;> simp [h1, h2]

/-- Outside any list of names there is a variable the loop does not use itself. -/
theorem exists_fresh (names : List Str) :
    ∃ f : Str, f ≠ [] ∧ scratch f = false ∧ fold f ∉ names := by
  obtain ⟨n, hn⟩ := Infinite.exists_notMem_finset
    ((names.map List.length).toFinset ∪ {0, 3, 7})
  simp only [Finset.mem_union, List.mem_toFinset, Finset.mem_insert, Finset.mem_singleton,
    not_or] at hn
  have hfold : fold (List.replicate n 'x') = List.replicate n 'x' := by
    rw [fold, List.map_replicate]
    rfl
  refine ⟨List.replicate n 'x', ?_, ?_, ?_⟩
  · intro h
    exact hn.2.1 (by simpa using congrArg List.length h)
  · rw [scratch, hfold]
    have hne : ∀ m : ℕ, n ≠ m → ∀ s : Str, s.length = m →
        (List.replicate n 'x' == s) = false := by
      intro m hm s hs
      rw [beq_eq_false_iff_ne]
      intro h
      exact hm (by rw [← hs, ← h, List.length_replicate])
    rw [hne 3 hn.2.2.1 _ (by decide), hne 3 hn.2.2.1 _ (by decide), hne 7 hn.2.2.2 _ (by decide)]
    rfl
  · intro h
    rw [hfold] at h
    exact hn.1 (List.mem_map.mpr ⟨_, h, List.length_replicate⟩)

theorem lastWrite_toList_eq_none {o : Option (Str × Str)} {names : List Str} {f : Str}
    (ho : ∀ w, o = some w → w.1 ∈ names) (hf : f ∉ names) : lastWrite f o.toList = none := by
  rw [lastWrite_eq_none_iff]
  intro w hw hwf
  rw [Option.mem_toList] at hw
  exact hf (hwf ▸ ho w hw)

theorem handsSwitch_of_readsRight {lines : List Line} (h : ReadsRight lines) :
    ∀ l ∈ lines, handsSwitch l.text = false := by
  intro l hl
  by_contra hs
  have hs' : handsSwitch l.text = true := by simpa using hs
  -- a variable no line names, which the switch of this line may set all the same
  obtain ⟨f, hne, hscr, hfresh⟩ := exists_fresh
    ((lines.filterMap fun l => loopRead l.text).map Prod.fst ++
      (lines.filterMap fun l => refRead l.text).map Prod.fst)
  rw [List.mem_append, not_or] at hfresh
  have hfree : ∀ l ∈ lines, lastWrite (fold f) (loopRead l.text).toList = none := by
    intro l' hl'
    apply lastWrite_toList_eq_none _ hfresh.1
    intro w hw
    exact List.mem_map.mpr ⟨w, List.mem_filterMap.mpr ⟨l', hl', hw⟩, rfl⟩
  have hrun := configLoop_marking f (fun _ => none) lines hscr hfree
  have hany : lines.any (fun l => handsSwitch l.text) = true :=
    List.any_eq_true.mpr ⟨l, hl, hs'⟩
  have href : lastRead refRead lines f = none := by
    rw [lastRead, lastWrite_eq_none_iff]
    intro w hw hwf
    exact hfresh.2 (List.mem_map.mpr ⟨w, hw, hwf⟩)
  have hright := h (marking f) (fun _ => none) f hne hscr
  rw [hrun, if_pos hany, refValue, href] at hright
  simp [Env.get] at hright

/-! ### When a file is read as intended -/

/-- The last text the loop assigns is the last text the reference assigns: tested from an
environment with nothing set and from one with everything set. -/
theorem lastRead_eq_of_outcome {x y : Option Str} (hy : ∀ t, y = some t → t ≠ [])
    (hnone : outcome x none = y.or none) (hsome : outcome x (some ['x']) = y.or (some ['x'])) :
    x = y := by
  cases x with
  | none =>
    cases y with
    | none => rfl
    | some t => simp [outcome] at hnone
  | some s =>
    by_cases hs : s = []
    · cases y with
      | none => simp [outcome, hs] at hsome
      | some t => simp [outcome, hs] at hnone
    · simpa [outcome, hs] using hnone

/-- **When a file is read as intended.**  No line hands `set` a switch, and the last line of either
reading gives every variable the same text. -/
theorem readsRight_iff (lines : List Line) :
    ReadsRight lines ↔ (∀ l ∈ lines, handsSwitch l.text = false) ∧
      ∀ v, v ≠ [] → scratch v = false → lastRead loopRead lines v = lastRead refRead lines v := by
  constructor
  · intro h
    have hsw := handsSwitch_of_readsRight h
    refine ⟨hsw, fun v hne hv => ?_⟩
    have hfrom : ∀ env : Env, outcome (lastRead loopRead lines v) (env.get v)
        = (lastRead refRead lines v).or (env.get v) := by
      intro env
      rw [← configLoop_get (.idle false) env lines v hsw hv]
      exact h _ env v hne hv
    exact lastRead_eq_of_outcome (fun t => lastRead_refRead_ne_nil)
      (hfrom fun _ => none) (hfrom fun _ => some ['x'])
  · rintro ⟨hsw, hlast⟩ cmd env v hne hv
    rw [configLoop_get cmd env lines v hsw hv, hlast v hne hv, refValue]
    cases hr : lastRead refRead lines v with
    | none => rfl
    | some x => simp [outcome, lastRead_refRead_ne_nil hr]

/-! ### When a line is read as intended -/

/-- A plain assignment of `x` to `v`: one `=`, a value that is more than blanks and quotes, and a key
that is still an ordinary name when its quotes are gone. -/
def PlainLine (l v x : Str) : Prop :=
  ∃ pre post, l = pre ++ '=' :: post ∧ '=' ∉ pre ∧ '=' ∉ post ∧
    dequote (trimBlanks post) = x ∧ x ≠ [] ∧
    fold (dequote (trimBlanks pre)) = v ∧ dequote (trimBlanks pre) ≠ [] ∧
    (dequote (trimBlanks pre)).head? ≠ some '#' ∧
    (dequote (trimBlanks pre)).dropWhile blank = dequote (trimBlanks pre) ∧
    isSwitch (dequote (trimBlanks pre)) = false

theorem takeWhile_ne_eq {pre : Str} (post : Str) (h : '=' ∉ pre) :
    (pre ++ '=' :: post).takeWhile (· != '=') = pre ∧
      (pre ++ '=' :: post).dropWhile (· != '=') = '=' :: post := by
  have hall : ∀ c ∈ pre, (c != '=') = true := by
    intro c hc
    have hne : c ≠ '=' := fun e => h (e ▸ hc)
    simpa using hne
  rw [List.takeWhile_append_of_pos hall, List.dropWhile_append_of_pos hall]
  simp

theorem fields_eq_of_key {pre : Str} (post : Str) (h : '=' ∉ pre) (hne : pre ≠ []) :
    fields (· == '=') (pre ++ '=' :: post) = pre :: fields (· == '=') post := by
  have hpre : ∀ c ∈ pre, (c == '=') = false := by
    intro c hc
    have hc' : c ≠ '=' := fun e => h (e ▸ hc)
    simpa using hc'
  rw [fields_append_delim pre post (by decide), fields_of_no_delim hpre, if_neg hne]
  rfl

theorem cleaned_of_ne_nil {s : Str} (h : trimBlanks s ≠ []) : cleaned s = dequote (trimBlanks s) :=
  if_neg h

theorem trimBlanks_ne_nil_of_dequote {s : Str} (h : dequote (trimBlanks s) ≠ []) :
    trimBlanks s ≠ [] := by
  intro e
  rw [e] at h
  exact h rfl

/-- A character of the text that is neither blank nor a quote survives the cleaning. -/
theorem mem_dequote_trimBlanks {s : Str} {c : Char} (hc : c ∈ s) (hb : blank c = false)
    (hq : c ≠ '"') : c ∈ dequote (trimBlanks s) :=
  mem_dequote.mpr ⟨mem_trimBlanks_of_mem hc hb, hq⟩

theorem not_mem_dequote_trimBlanks {s : Str} {c : Char} (h : c ∉ s) :
    c ∉ dequote (trimBlanks s) :=
  fun hc => h (mem_of_mem_trimBlanks (mem_dequote.mp hc).1)

/-- A comment sign in front of the key is still there when the key has been cleaned. -/
theorem head_of_comment {pre : Str} (post : Str) (hpre : trimBlanks pre ≠ [])
    (h : ((pre ++ '=' :: post).dropWhile blank).head? = some '#') :
    (dequote (trimBlanks pre)).head? = some '#' := by
  rw [dropWhile_blank_append_eq] at h
  have hne : pre.dropWhile blank ≠ [] := by
    intro e
    rw [trimBlanks, e] at hpre
    exact hpre rfl
  cases hd : pre.dropWhile blank with
  | nil => exact absurd hd hne
  | cons c cs =>
    rw [hd, List.cons_append, List.head?_cons, Option.some.injEq] at h
    subst h
    have htrim : ∃ t, trimBlanks pre = '#' :: t := by
      rw [trimBlanks, hd] at hpre ⊢
      obtain ⟨t, ht⟩ := List.rdropWhile_prefix blank ('#' :: cs)
      cases hr : List.rdropWhile blank ('#' :: cs) with
      | nil => exact absurd hr hpre
      | cons a as =>
        rw [hr, List.cons_append, List.cons.injEq] at ht
        exact ⟨as, by rw [ht.1]⟩
    obtain ⟨t, ht⟩ := htrim
    rw [ht]
    rfl

/-- A plain line is read alike by both. -/
theorem both_read_of_plain {l v x : Str} (h : PlainLine l v x) :
    loopRead l = some (v, x) ∧ refRead l = some (v, x) := by
  obtain ⟨pre, post, rfl, hpre, hpost, rfl, hx, rfl, hk, hhash, hblank, hswitch⟩ := h
  have htpre := trimBlanks_ne_nil_of_dequote hk
  have htpost := trimBlanks_ne_nil_of_dequote hx
  have hne : pre ≠ [] := by rintro rfl; exact htpre rfl
  have hpne : post ≠ [] := by rintro rfl; exact htpost rfl
  have hpost' : ∀ c ∈ post, (c == '=') = false := by
    intro c hc
    have hc' : c ≠ '=' := fun e => hpost (e ▸ hc)
    simpa using hc'
  constructor
  · have hread : readLine (pre ++ '=' :: post) =
        some (dequote (trimBlanks pre) ++ '=' :: dequote (trimBlanks post)) := by
      rw [readLine, fields_eq_of_key post hpre hne, fields_of_no_delim hpost', if_neg hpne]
      simp only [cleaned_of_ne_nil htpre, cleaned_of_ne_nil htpost, if_neg hhash]
    have hparse := parseSet_key (dequote (trimBlanks post)) (not_mem_dequote_trimBlanks hpre)
      (fun hq => (mem_dequote.mp hq).2 rfl : '"' ∉ dequote (trimBlanks pre))
    rw [hblank, if_neg hk, hswitch] at hparse
    rw [loopRead, hread, Option.map_some, hparse]
    rfl
  · rw [refRead, (takeWhile_ne_eq post hpre).2, (takeWhile_ne_eq post hpre).1]
    have hcomment : ((pre ++ '=' :: post).dropWhile blank).head? ≠ some '#' :=
      fun hc => hhash (head_of_comment post htpre hc)
    simp only [if_neg htpre, if_neg hcomment, if_neg hx]

/-- A line both readings take for the same assignment is plain. -/
theorem plain_of_both_read {l v x : Str} (hloop : loopRead l = some (v, x))
    (href : refRead l = some (v, x)) : PlainLine l v x := by
  rcases split_first_delim (· == '=') l with hno | ⟨pre, d, post, rfl, hd, hpre⟩
  · -- without an `=` there is no reference reading
    have hdrop : l.dropWhile (· != '=') = [] := by
      rw [List.dropWhile_eq_nil_iff]
      intro c hc
      simpa using hno c hc
    simp [refRead, hdrop] at href
  · have hde : d = '=' := by simpa using hd
    subst hde
    have hpre' : '=' ∉ pre := fun h => by simpa using hpre '=' h
    rw [refRead, (takeWhile_ne_eq post hpre').2, (takeWhile_ne_eq post hpre').1] at href
    have htpre : trimBlanks pre ≠ [] := by
      intro h
      simp [h] at href
    have hcomment : ((pre ++ '=' :: post).dropWhile blank).head? ≠ some '#' := by
      intro h
      simp [h, htpre] at href
    have hx : dequote (trimBlanks post) ≠ [] := by
      intro h
      simp [h, htpre] at href
    simp only [if_neg htpre, if_neg hcomment, if_neg hx, Option.some.injEq, Prod.mk.injEq] at href
    obtain ⟨hv, hxe⟩ := href
    have hne : pre ≠ [] := by rintro rfl; exact htpre rfl
    set k := dequote (trimBlanks pre) with hkdef
    -- the loop's second field carries the whole value
    rw [loopRead, readLine, fields_eq_of_key post hpre' hne] at hloop
    cases hf : fields (· == '=') post with
    | nil => simp [hf] at hloop
    | cons b rest =>
      have hb := mem_field (show b ∈ fields (· == '=') post by rw [hf]; simp)
      simp only [hf, cleaned_of_ne_nil htpre, ← hkdef] at hloop
      have hhash : k.head? ≠ some '#' := by
        intro h
        simp [h] at hloop
      rw [if_neg hhash, Option.map_some, parseSet_key (cleaned b)
        (not_mem_dequote_trimBlanks hpre') (fun hq => (mem_dequote.mp hq).2 rfl)] at hloop
      have hk1 : k.dropWhile blank ≠ [] := by
        intro h
        rw [if_pos h] at hloop
        exact absurd hloop (by simp)
      rw [if_neg hk1] at hloop
      have hswitch : isSwitch (k.dropWhile blank) = false := by
        by_contra h
        rw [if_pos (by simpa using h)] at hloop
        exact absurd hloop (by simp)
      rw [hswitch] at hloop
      simp only [Bool.false_eq_true, if_false, Option.some.injEq, Prod.mk.injEq] at hloop
      obtain ⟨hv', hxe'⟩ := hloop
      have hblank : k.dropWhile blank = k := by
        apply (List.dropWhile_suffix blank).eq_of_length
        have hlen := congrArg List.length (hv'.trans hv.symm)
        simpa [fold] using hlen
      have hbx : '=' ∉ x := by
        rw [← hxe', cleaned]
        split
        · rename_i h
          -- a blank field would be read as the text `"=`, whose quote no reference value has
          exfalso
          rw [cleaned, if_pos h] at hxe'
          have hquote : '"' ∈ dequote (trimBlanks post) := by rw [hxe, ← hxe']; simp
          exact (mem_dequote.mp hquote).2 rfl
        · apply not_mem_dequote_trimBlanks
          intro hmem
          simpa using (hb '=' hmem).1
      have hpost : '=' ∉ post := by
        intro hmem
        apply hbx
        rw [← hxe]
        exact mem_dequote_trimBlanks hmem (by decide) (by decide)
      rw [hblank] at hswitch hk1
      exact ⟨pre, post, rfl, hpre', hpost, hxe, hxe ▸ hx, hv, hk1, hhash, hblank, hswitch⟩

/-- **When a line is read as intended.**  Both readings take a line for the assignment of `x` to `v`
exactly when it is a plain assignment of `x` to `v`. -/
theorem both_read_iff (l v x : Str) :
    loopRead l = some (v, x) ∧ refRead l = some (v, x) ↔ PlainLine l v x :=
  ⟨fun h => plain_of_both_read h.1 h.2, both_read_of_plain⟩

example : PlainLine "LIBAROMA_SOURCE = \"D:\\projects\\libaroma\"".toList
    "libaroma_source".toList "D:\\projects\\libaroma".toList :=
  (both_read_iff _ _ _).mp (by decide)

/-- A file of plain lines and of lines neither reading cares about is read as intended. -/
theorem readsRight_of_plain {lines : List Line}
    (h : ∀ l ∈ lines, (readLine l.text = none ∧ refRead l.text = none) ∨
      ∃ v x, PlainLine l.text v x) : ReadsRight lines := by
  rw [readsRight_iff]
  have hsame : ∀ l ∈ lines, loopRead l.text = refRead l.text := by
    intro l hl
    rcases h l hl with ⟨hloop, href⟩ | ⟨v, x, hplain⟩
    · rw [href, loopRead, hloop]
      rfl
    · obtain ⟨h1, h2⟩ := both_read_of_plain hplain
      rw [h1, h2]
  refine ⟨fun l hl => ?_, fun v _ _ => ?_⟩
  · rcases h l hl with ⟨hloop, _⟩ | ⟨v, x, hplain⟩
    · rw [handsSwitch, hloop]
      rfl
    · have hread := (both_read_of_plain hplain).1
      unfold loopRead at hread
      unfold handsSwitch
      split at hread
      · rename_i heq
        rw [heq]
      · simp at hread
  · rw [lastRead, lastRead, List.filterMap_congr hsame]

/-- **The settings loader and `KEY=VALUE` files.**  The first part says when it reads a file as
intended, the second which of its lines on their own. -/
theorem setldr_reads_keyValue_iff (lines : List Line) :
    (ReadsRight lines ↔
      (∀ l ∈ lines, handsSwitch l.text = false) ∧
        ∀ v, v ≠ [] → scratch v = false →
          lastRead loopRead lines v = lastRead refRead lines v) ∧
    ∀ l ∈ lines, ∀ v x,
      loopRead l.text = some (v, x) ∧ refRead l.text = some (v, x) ↔ PlainLine l.text v x :=
  ⟨readsRight_iff lines, fun l _ => both_read_iff l.text⟩

/-- A compiler setting with an option that has a value of its own. -/
def cutLine : Line := ⟨"LIBAROMA_GCC=gcc.exe -march=armv7-a".toList, by decide⟩

/-- The value is cut at its second `=`: the compiler is called with `-march` and no architecture. -/
theorem setldr_cuts_value : ¬ ReadsRight [cutLine] := by
  intro h
  have hgcc := h (.idle false) (fun _ => none) "LIBAROMA_GCC" (by decide) (by decide)
  revert hgcc
  decide

end Atools
