import EquantOS.Lib.Words

/-!
# Interpreter resolution of execve

`sys_execve_handler` of `proc/syscall.c` up to the point at which it has an ELF image and the argument
vector for it.  A file that begins with `#!` is a script: the handler calls itself on the first word
of its interpreter line, with the words of the line, the path of the script and the arguments after
the first as the new argument vector.

The new vector is built in `interp_argv`, an array of 18 entries.  The words are written to it without
a check, the arguments as long as fewer than 16 entries are in use, and the calls are not counted.
-/

open List Option

/-- The bytes of a C string, without the zero that ends it. -/
abbrev CString := List UInt8

/-- A string literal of the source. -/
def text (s : String) : CString := s.toList.map fun c => UInt8.ofNat c.toNat

/-- `strncpy` and `snprintf` into a buffer of 256 bytes. -/
def inBuffer (s : CString) : CString := s.take 255

/-- `resolve_user_path` into a buffer of 256 bytes, for a process with the working directory `cwd`. -/
def resolveUserPath (cwd input : CString) : CString :=
  let base := if cwd ≠ [] then inBuffer cwd else text "/"
  if input = [] then base
  else if input.head? = some 47 then inBuffer input
  else
    let base :=
      if base.getLast? ≠ some 47 ∧ base.length + 1 < 256 then base ++ text "/" else base
    base ++ input.take (256 - base.length - 1)

inductive ExecError where
  | inval | noEnt | noMem | io | noExec
deriving DecidableEq, Repr

/-- A file as the handler sees it: whether it is a directory, and the buffer that `kmalloc` and
`vfs_read` give, or the error if one of them fails. -/
structure ExecFile where
  directory : Bool
  buffer : Except ExecError (List UInt8)

/-- What `vfs_open` finds at a path. -/
abbrev FileSystem := CString → Option ExecFile

/-- What one call of the handler comes to, up to the loading of an image. -/
inductive Resolution where
  | error (e : ExecError)
  /-- The image is loaded with this argument vector. -/
  | image (data : List UInt8) (args : List CString)
  /-- The handler calls itself. -/
  | script (filename : CString) (args : List CString)
  /-- A write behind `interp_argv`, or a read behind the vector of the caller. -/
  | outOfBounds
deriving DecidableEq, Repr

namespace Exec

/-- The file and the path it was found at. -/
def locate (fs : FileSystem) (cwd filename : CString) : Option (CString × ExecFile) :=
  [resolveUserPath cwd filename, inBuffer (text "/bin/" ++ filename),
    inBuffer (text "/bin/" ++ filename ++ text ".elf"), inBuffer (filename ++ text ".elf")].findSome?
      fun path => (fs path).map fun file => (path, file)

/-- The file begins with `#!`. -/
def isScript (data : List UInt8) : Bool := data.take 2 = text "#!"

/-- The checks of the header at the start of `elf_execve_replace`. -/
def isElf (data : List UInt8) : Bool := 64 ≤ data.length ∧ data.take 4 = 0x7F :: text "ELF"

def isSpace (c : UInt8) : Bool := c = 32

/-- What follows `#!` and blanks on the first line. -/
def firstLine (data : List UInt8) : List UInt8 :=
  ((data.drop 2).dropWhile fun c => c = 32 ∨ c = 9).takeWhile fun c => c ≠ 10 ∧ c ≠ 13

/-- The tokens of `interp_line`, a buffer of 128 bytes. -/
def interpTokens (data : List UInt8) : List CString :=
  (((firstLine data).take 127).takeWhile (· ≠ 0)).scanWords isSpace 127

/-- Write the next entry of `interp_argv`; `none` behind its end. -/
def putArg (args : List CString) (arg : CString) : Option (List CString) :=
  if args.length < 18 then some (args ++ [arg]) else none

/-- The loop over the arguments of the caller after the first. -/
def putRest : List CString → List CString → List CString
  | args, [] => args
  | args, arg :: rest => if args.length < 16 then putRest (args ++ [arg]) rest else args

/-- The contents of `interp_argv`; `none` if an entry, or the `NULL` at the end, does not fit. -/
def interpArgv (tokens : List CString) (resolved : CString) (rest : List CString) :
    Option (List CString) := do
  let args ← tokens.foldlM putArg []
  let args ← putArg args resolved
  let args := putRest args rest
  if args.length < 18 then some args else none

/-- The file at `filename`, read into a buffer, with the path it was found at. -/
def readFile (fs : FileSystem) (cwd : CString) (filename : Option CString) :
    Except ExecError (CString × List UInt8) :=
  match filename with
  | none => .error .inval
  | some filename =>
    match locate fs cwd filename with
    | none => .error .noEnt
    | some (resolved, file) =>
      if file.directory then .error .noEnt
      else
        match file.buffer with
        | .error e => .error e
        | .ok data => .ok (resolved, data)

/-- `sys_execve_handler`, up to its call of itself or the loading of the image.  The loop over `argv`
begins at its second entry, which an empty vector does not have. -/
def execStep (fs : FileSystem) (cwd : CString) (filename : Option CString)
    (argv : Option (List CString)) : Resolution :=
  match readFile fs cwd filename with
  | .error e => .error e
  | .ok (resolved, data) =>
    if isScript data then
      if argv = some [] then .outOfBounds
      else
        match interpArgv (interpTokens data) resolved (argv.getD []).tail with
        | none => .outOfBounds
        | some args => .script (args.headD []) args
    else if isElf data then .image data (argv.getD [])
    else .error .noExec

/-- `sys_execve_handler` with at most `n` calls; `none` if they are not enough. -/
def resolve (fs : FileSystem) (cwd : CString) :
    ℕ → Option CString → Option (List CString) → Option Resolution
  | 0, _, _ => none
  | n + 1, filename, argv =>
    match execStep fs cwd filename argv with
    | .script filename args => resolve fs cwd n (some filename) (some args)
    | r => some r

/-! ### Scripts -/

/-- A script: the path it was found at and its interpreter line, up to a zero. -/
structure Script where
  path : CString
  line : CString
  trimmed : ∀ c ∈ line.head?, ¬ isSpace c

namespace Script

variable (s : Script)

def words : List CString := s.line.words isSpace

/-- The words that the handler reads, from the first 127 bytes of the line. -/
def read : List CString := (s.line.take 127).words isSpace

/-- The file that the handler goes on with. -/
def interpreter : CString := (s.read ++ [s.path]).headD []

/-- Replace the first argument by the words of the line and the path of the script. -/
def expand (args : List CString) : List CString := s.words ++ s.path :: args.tail

/-- The argument vector that the handler makes of `args`, when its array has room for the words. -/
def pass (args : List CString) : List CString :=
  s.read ++ s.path :: args.tail.take (15 - s.read.length)

end Script

def interpreterLine (data : List UInt8) : CString := (firstLine data).takeWhile (· ≠ 0)

lemma interpreterLine_trimmed (data : List UInt8) :
  ∀ c ∈ (interpreterLine data).head?, ¬ isSpace c
  := by
  intro c hc hspace
  have hhead := mem_def.mp hc
  rw [interpreterLine, head?_takeWhile, filter_eq_some_iff, firstLine,
    head?_takeWhile, filter_eq_some_iff] at hhead
  have := head?_dropWhile_not (fun c : UInt8 => decide (c = 32 ∨ c = 9)) (data.drop 2)
  rw [hhead.1.1] at this
  simp_all [isSpace]

/-- The script at `filename`, if it is one. -/
def scriptAt (fs : FileSystem) (cwd : CString) (filename : Option CString) : Option Script :=
  match readFile fs cwd filename with
  | .error _ => none
  | .ok (path, data) =>
    if isScript data then some ⟨path, interpreterLine data, interpreterLine_trimmed data⟩ else none

/-- The ELF image at `filename`, or the error. -/
def imageAt (fs : FileSystem) (cwd : CString) (filename : Option CString) :
    Except ExecError (List UInt8) :=
  match readFile fs cwd filename with
  | .error e => .error e
  | .ok (_, data) => if isElf data then .ok data else .error .noExec

/-- The scripts that are met from `filename` on, up to a file that is none. -/
inductive Met (fs : FileSystem) (cwd : CString) : Option CString → List Script → Prop
  | stop {filename : Option CString} (h : scriptAt fs cwd filename = none) : Met fs cwd filename []
  | script {filename : Option CString} {s : Script} {scripts : List Script}
      (h : scriptAt fs cwd filename = some s) (hs : Met fs cwd (some s.interpreter) scripts) :
      Met fs cwd filename (s :: scripts)

/-! ### One call -/

lemma foldlM_putArg (tokens args : List CString) (h : args.length ≤ 18) :
  tokens.foldlM putArg args
    = if args.length + tokens.length ≤ 18 then some (args ++ tokens) else none
  := by
  induction tokens generalizing args with
  | nil => simp [h]
  | cons token tokens ih =>
    rw [foldlM_cons, putArg]
    by_cases hroom : args.length < 18
    · simp [hroom, ih (args ++ [token]) (by simp; omega), Nat.add_assoc, Nat.add_comm 1]
    · simp [hroom, show ¬ args.length + (tokens.length + 1) ≤ 18 by omega]

lemma putRest_eq (args rest : List CString) :
  putRest args rest = args ++ rest.take (16 - args.length)
  := by
  induction rest generalizing args with
  | nil => simp [putRest]
  | cons arg rest ih =>
    rw [putRest]
    split
    · rw [ih, append_assoc, length_append, length_singleton,
        show 16 - args.length = 16 - (args.length + 1) + 1 by omega]
      rfl
    · next h => simp [show 16 - args.length = 0 by omega]

lemma interpArgv_eq (tokens : List CString) (resolved : CString) (rest : List CString) :
  interpArgv tokens resolved rest
    = if tokens.length ≤ 16 then some (tokens ++ resolved :: rest.take (15 - tokens.length)) else none
  := by
  rw [interpArgv, foldlM_putArg tokens [] (Nat.zero_le _), length_nil, Nat.zero_add, nil_append]
  by_cases hfit : tokens.length ≤ 17
  · have hput : putArg tokens resolved = some (tokens ++ [resolved]) := if_pos (by omega)
    have hrest : putRest (tokens ++ [resolved]) rest
        = tokens ++ resolved :: rest.take (15 - tokens.length) := by
      rw [putRest_eq, append_assoc, singleton_append, length_append,
        length_singleton, show 16 - (tokens.length + 1) = 15 - tokens.length by omega]
    have htake : (rest.take (15 - tokens.length)).length ≤ 15 - tokens.length :=
      length_take_le _ _
    simp only [if_pos (by omega : tokens.length ≤ 18), bind_eq_bind, bind_some, hput,
      hrest, length_append, length_cons]
    exact if_congr (by omega) rfl rfl
  · rw [if_neg (by omega : ¬ tokens.length ≤ 16)]
    split
    · simp [putArg, show ¬ tokens.length < 18 by omega]
    · rfl

lemma interpTokens_eq (data : List UInt8) :
  interpTokens data = ((interpreterLine data).take 127).words isSpace
  := by
  rw [interpreterLine, take_takeWhile]
  apply scanWords_eq_words
  exact Nat.le_trans (takeWhile_sublist _).length_le (length_take_le _ _)

/-- What a call does, by the file at `filename`. -/
lemma execStep_eq (fs : FileSystem) (cwd : CString) (filename : Option CString)
    (argv : Option (List CString)) :
  execStep fs cwd filename argv
    = match scriptAt fs cwd filename with
      | some s =>
        if argv ≠ some [] ∧ s.read.length ≤ 16 then .script s.interpreter (s.pass (argv.getD []))
        else .outOfBounds
      | none =>
        match imageAt fs cwd filename with
        | .ok data => .image data (argv.getD [])
        | .error e => .error e
  := by
  rw [execStep, scriptAt, imageAt]
  cases readFile fs cwd filename with
  | error e => rfl
  | ok found =>
    obtain ⟨resolved, data⟩ := found
    by_cases hscript : isScript data
    · by_cases hargv : argv = some []
      · simp [hscript, hargv]
      · simp only [hscript, interpArgv_eq, interpTokens_eq]
        by_cases hread : (((interpreterLine data).take 127).words isSpace).length ≤ 16
        · simp [hread, Script.pass, Script.read, Script.interpreter]
        · simp [hread, Script.read]
    · by_cases helf : isElf data
      · simp [hscript, helf]
      · simp [hscript, helf]

/-! ### Chains of scripts -/

section Chain

variable {fs : FileSystem} {cwd : CString} {filename : Option CString} {argv : Option (List CString)}
variable {scripts : List Script} {r : Resolution} {n : ℕ}

lemma Met.unique {scripts' : List Script} (h : Met fs cwd filename scripts)
    (h' : Met fs cwd filename scripts') :
  scripts = scripts'
  := by
  induction h generalizing scripts' with
  | stop h =>
    cases h' with
    | stop h' => rfl
    | script h' hs' => exact absurd (h.symm.trans h') nofun
  | script h hs ih =>
    cases h' with
    | stop h' => exact absurd (h.symm.trans h') nofun
    | script h' hs' =>
      obtain rfl := some.inj (h.symm.trans h')
      rw [ih hs']

section

variable {s : Script} (h : Met fs cwd filename scripts) (hs : scriptAt fs cwd filename = some s)

include h hs

/-- The script at the head of a chain. -/
lemma Met.exists_cons :
  ∃ rest, scripts = s :: rest ∧ Met fs cwd (some s.interpreter) rest
  := by
  cases h with
  | stop h => exact absurd (h.symm.trans hs) nofun
  | script h hrest =>
    obtain rfl := some.inj (h.symm.trans hs)
    exact ⟨_, rfl, hrest⟩

/-- A script that is its own interpreter leads nowhere. -/
lemma Met.interpreter_ne :
  some s.interpreter ≠ filename
  := by
  intro hself
  obtain ⟨rest, rfl, hrest⟩ := h.exists_cons hs
  rw [hself] at hrest
  exact cons_ne_self s rest (h.unique hrest)

end

/-- The file that the scripts lead to. -/
def target : Option CString → List Script → Option CString
  | filename, [] => filename
  | _, s :: scripts => target (some s.interpreter) scripts

/-- Replace the first argument for one script after the other. -/
def expandAll (scripts : List Script) (args : List CString) : List CString :=
  scripts.foldl (fun args s => s.expand args) args

/-- The argument vector of the handler after these scripts. -/
def passAll (scripts : List Script) (args : List CString) : List CString :=
  scripts.foldl (fun args s => s.pass args) args

/-- What the handler comes to when its arrays have room. -/
def outcome (fs : FileSystem) (cwd : CString) (filename : Option CString) (scripts : List Script)
    (args : List CString) : Resolution :=
  match imageAt fs cwd (target filename scripts) with
  | .ok data => .image data (passAll scripts args)
  | .error e => .error e

/-- The handler stays within its arrays, and within the vector of the caller. -/
structure InBounds (scripts : List Script) (argv : Option (List CString)) : Prop where
  room : ∀ s ∈ scripts, s.read.length ≤ 16
  given : scripts = [] ∨ argv ≠ some []

lemma Script.pass_ne_nil (s : Script) (args : List CString) : s.pass args ≠ []
  := by
  simp [Script.pass]

lemma InBounds.tail {s : Script} {args : List CString} (h : InBounds (s :: scripts) argv) :
  InBounds scripts (some (s.pass args))
  where
  room s' hs' := h.room s' (mem_cons_of_mem s hs')
  given := .inr fun heq => s.pass_ne_nil args (some.inj heq)

lemma resolve_of_met (h : Met fs cwd filename scripts) (hin : InBounds scripts argv) :
  resolve fs cwd (scripts.length + 1) filename argv
    = some (outcome fs cwd filename scripts (argv.getD []))
  := by
  induction h generalizing argv with
  | @stop filename h =>
    rw [resolve, execStep_eq, h, outcome, target]
    cases imageAt fs cwd filename with
    | ok data => rfl
    | error e => rfl
  | @script filename s scripts h hs ih =>
    have hstep : execStep fs cwd filename argv = .script s.interpreter (s.pass (argv.getD [])) := by
      rw [execStep_eq, h]
      exact if_pos ⟨hin.given.resolve_left nofun, hin.room s mem_cons_self⟩
    rw [resolve, hstep]
    exact ih hin.tail

lemma met_of_resolve (h : resolve fs cwd n filename argv = some r) (hr : r ≠ .outOfBounds) :
  ∃ scripts, Met fs cwd filename scripts ∧ InBounds scripts argv ∧
    r = outcome fs cwd filename scripts (argv.getD [])
  := by
  induction n generalizing filename argv with
  | zero => exact absurd h nofun
  | succ n ih =>
    rw [resolve, execStep_eq] at h
    cases hs : scriptAt fs cwd filename with
    | none =>
      refine ⟨[], .stop hs, ⟨nofun, .inl rfl⟩, ?_⟩
      rw [hs] at h
      rw [outcome, target]
      cases hi : imageAt fs cwd filename with
      | ok data =>
        rw [hi] at h
        exact (some.inj h).symm
      | error e =>
        rw [hi] at h
        exact (some.inj h).symm
    | some s =>
      rw [hs] at h
      by_cases hok : argv ≠ some [] ∧ s.read.length ≤ 16
      · simp only [if_pos hok] at h
        obtain ⟨scripts, hmet, hin, rfl⟩ := ih h
        refine ⟨s :: scripts, .script hs hmet, ⟨?_, .inr hok.1⟩, rfl⟩
        rintro s' (_ | ⟨_, hs'⟩)
        · exact hok.2
        · exact hin.room s' hs'
      · simp only [if_neg hok] at h
        exact absurd (some.inj h).symm hr

end Chain

/-! ### The arguments passed on -/

namespace Script

variable {s : Script} {args args' : List CString}

lemma length_read_le (s : Script) : s.read.length ≤ s.words.length
  := length_words_take_le 127 s.line

lemma read_eq_nil_iff (s : Script) : s.read = [] ↔ s.words = []
  := by
  obtain ⟨path, line, htrimmed⟩ := s
  cases line with
  | nil => rfl
  | cons c line =>
    have hc : ¬ isSpace c := htrimmed c rfl
    simp [read, words, words_cons_of_not_sep hc]

lemma tail_expand (s : Script) (args : List CString) :
  (s.expand args).tail.length = s.words.length + args.tail.length
  := by
  simp only [expand, length_tail, length_append, length_cons]
  omega

lemma length_pass_le (s : Script) (h : args.tail.length ≤ args'.tail.length) :
  (s.pass args).tail.length ≤ (s.expand args').tail.length
  := by
  have := s.length_read_le
  have := length_take_le' (15 - s.read.length) args.tail
  rw [tail_expand]
  simp only [pass, length_tail, length_append, length_cons] at *
  omega

/-- No argument is dropped. -/
lemma take_eq_iff {t t' : List CString} {k : ℕ} (h : t.length ≤ t'.length) :
  t.take k = t' ↔ t = t' ∧ t'.length ≤ k
  := by
  constructor
  · intro heq
    have hlen := congrArg length heq
    rw [length_take] at hlen
    have hk : t.length ≤ k := by omega
    rw [take_of_length_le hk] at heq
    exact ⟨heq, heq ▸ hk⟩
  · rintro ⟨rfl, hk⟩
    exact take_of_length_le hk

lemma pass_eq_expand_iff (h : args.tail.length ≤ args'.tail.length) :
  s.pass args = s.expand args' ↔
    s.read = s.words ∧ args.tail = args'.tail ∧ args'.tail.length ≤ 15 - s.read.length
  := by
  rw [pass, expand, ← take_eq_iff h]
  constructor
  · intro heq
    have hlen := congrArg length heq
    have hread := s.length_read_le
    have htake := length_take_le' (15 - s.read.length) args.tail
    simp only [length_append, length_cons] at hlen
    obtain ⟨hwords, hrest⟩ := append_inj heq (by omega)
    exact ⟨hwords, (cons.inj hrest).2⟩
  · rintro ⟨hwords, hrest⟩
    rw [hrest, hwords]

lemma tail_pass_eq_iff (h : args.tail.length ≤ args'.tail.length) :
  (s.pass args).tail = (s.expand args').tail ↔
    s.read.tail = s.words.tail ∧ args.tail = args'.tail ∧ args'.tail.length ≤ 15 - s.read.length
  := by
  rw [← take_eq_iff h, pass, expand]
  have hnil := s.read_eq_nil_iff
  have hread := s.length_read_le
  cases hr : s.read with
  | nil => simp [hnil.mp hr]
  | cons w read =>
    cases hw : s.words with
    | nil => exact absurd (hnil.mpr hw) (hr ▸ cons_ne_nil w read)
    | cons w' words =>
      rw [hr, hw] at hread
      simp only [cons_append, tail_cons]
      constructor
      · intro heq
        have hlen := congrArg length heq
        have htake := length_take_le' (15 - (w :: read).length) args.tail
        simp only [length_append, length_cons] at hlen hread htake
        obtain ⟨hwords, hrest⟩ := append_inj heq (by omega)
        exact ⟨hwords, (cons.inj hrest).2⟩
      · rintro ⟨rfl, hrest⟩
        rw [hrest]

end Script

/-- The words of every line are read and no argument is dropped, when `n` arguments follow the first.
The first word of a line that is read in part is replaced again if it names a script. -/
def Whole : List Script → ℕ → Prop
  | [], _ => True
  | s :: scripts, n =>
    (s.read.tail = s.words.tail ∧ (scripts = [] → s.read = s.words)) ∧ n ≤ 15 - s.read.length ∧
      Whole scripts (s.words.length + n)

lemma passAll_eq_iff {s : Script} {scripts : List Script} {args args' : List CString}
    (h : args.tail.length ≤ args'.tail.length) :
  passAll (s :: scripts) args = expandAll (s :: scripts) args' ↔
    args.tail = args'.tail ∧ Whole (s :: scripts) args'.tail.length
  := by
  induction scripts generalizing s args args' with
  | nil =>
    simp only [passAll, expandAll, foldl_cons, foldl_nil, Script.pass_eq_expand_iff h, Whole]
    constructor
    · rintro ⟨hwords, htail, hroom⟩
      exact ⟨htail, ⟨congrArg tail hwords, fun _ => hwords⟩, hroom, trivial⟩
    · rintro ⟨htail, ⟨-, hwords⟩, hroom, -⟩
      exact ⟨hwords trivial, htail, hroom⟩
  | cons s' scripts ih =>
    change passAll (s' :: scripts) (s.pass args) = expandAll (s' :: scripts) (s.expand args') ↔ _
    rw [ih (s.length_pass_le h), Script.tail_pass_eq_iff h, Script.tail_expand]
    constructor
    · rintro ⟨⟨hwords, htail, hroom⟩, hrest⟩
      exact ⟨htail, ⟨hwords, nofun⟩, hroom, hrest⟩
    · rintro ⟨htail, ⟨hwords, -⟩, hroom, hrest⟩
      exact ⟨⟨hwords, htail, hroom⟩, hrest⟩

/-! ### When resolution is right -/

section Resolution

variable (fs : FileSystem) (cwd : CString) (filename : Option CString) (argv : Option (List CString))

/-- The handler comes, after finitely many calls of itself and within its arrays, to an error or to an
image, and passes on the argument vector of the caller with the first argument replaced once for
each script met. -/
def ResolvesWell : Prop :=
  ∃ n r scripts, resolve fs cwd n filename argv = some r ∧ Met fs cwd filename scripts ∧
    ((∃ e, r = .error e) ∨ ∃ data, r = .image data (expandAll scripts (argv.getD [])))

/-- The scripts come to an end, each has at most 16 words, an argument vector has a first argument to
replace, and if there is an image then all words and arguments find their place. -/
structure Resolvable (scripts : List Script) : Prop where
  met : Met fs cwd filename scripts
  inBounds : InBounds scripts argv
  whole : ∀ data, imageAt fs cwd (target filename scripts) = .ok data →
    Whole scripts (argv.getD []).tail.length

variable {fs cwd filename argv} {scripts : List Script}

lemma passAll_eq_expandAll_iff (args : List CString) :
  passAll scripts args = expandAll scripts args ↔ Whole scripts args.tail.length
  := by
  cases scripts with
  | nil => exact iff_of_true rfl trivial
  | cons s scripts => rw [passAll_eq_iff (Nat.le_refl _), and_iff_right rfl]

lemma ResolvesWell.resolvable (h : ResolvesWell fs cwd filename argv) :
  ∃ scripts, Resolvable fs cwd filename argv scripts
  := by
  obtain ⟨n, r, scripts, hn, hmet, hr⟩ := h
  have hbounds : r ≠ .outOfBounds := by
    rintro rfl
    rcases hr with ⟨e, he⟩ | ⟨data, hdata⟩
    · exact absurd he nofun
    · exact absurd hdata nofun
  obtain ⟨scripts', hmet', hin, rfl⟩ := met_of_resolve hn hbounds
  obtain rfl := hmet.unique hmet'
  refine ⟨scripts, hmet, hin, fun data hdata => ?_⟩
  rw [outcome, hdata] at hr
  rcases hr with ⟨e, he⟩ | ⟨data', hr⟩
  · exact absurd he nofun
  · exact (passAll_eq_expandAll_iff _).mp (Resolution.image.inj hr).2

theorem resolvesWell_iff (fs : FileSystem) (cwd : CString) (filename : Option CString)
    (argv : Option (List CString)) :
  ResolvesWell fs cwd filename argv ↔ ∃ scripts, Resolvable fs cwd filename argv scripts
  := by
  refine ⟨ResolvesWell.resolvable, ?_⟩
  rintro ⟨scripts, hmet, hin, hwhole⟩
  refine ⟨scripts.length + 1, _, scripts, resolve_of_met hmet hin, hmet, ?_⟩
  rw [outcome]
  cases himage : imageAt fs cwd (target filename scripts) with
  | error e => exact .inl ⟨e, rfl⟩
  | ok data =>
    have hpass := (passAll_eq_expandAll_iff (argv.getD [])).mpr (hwhole data himage)
    exact .inr ⟨data, by rw [hpass]⟩

/-! ### Scripts that go wrong -/

/-- `/bin/sh` is an image, `/self` names itself, `/many` has seventeen words and `/s` runs `sh`. -/
def someFiles : FileSystem := fun path =>
  let file (data : List UInt8) : Option ExecFile := some ⟨false, .ok data⟩
  if path = text "/bin/sh" then file (0x7F :: text "ELF" ++ List.replicate 60 0)
  else if path = text "/self" then file (text "#!/self\n")
  else if path = text "/many" then file (text "#!/bin/sh a a a a a a a a a a a a a a a a\n")
  else if path = text "/s" then file (text "#! /bin/sh -e\n")
  else none

/-- A script that is its own interpreter is resolved for ever, seventeen words do not fit into the
array, and of sixteen arguments the last ones are dropped. -/
theorem resolves_badly :
  ¬ ResolvesWell someFiles (text "/") (some (text "/self")) (some [text "self"]) ∧
  ¬ ResolvesWell someFiles (text "/") (some (text "/many")) (some [text "many"]) ∧
  ¬ ResolvesWell someFiles (text "/") (some (text "/s")) (some (List.replicate 16 (text "x")))
  := by
  refine ⟨fun h => ?_, fun h => ?_, fun h => ?_⟩
  · obtain ⟨scripts, hmet, -, -⟩ := h.resolvable
    have hself : (scriptAt someFiles (text "/") (some (text "/self"))).map Script.interpreter
        = some (text "/self") := by decide +kernel
    obtain ⟨s, hs, hinterp⟩ := map_eq_some_iff.mp hself
    exact hmet.interpreter_ne hs (congrArg some hinterp)
  · obtain ⟨scripts, hmet, hin, -⟩ := h.resolvable
    have hmany : (scriptAt someFiles (text "/") (some (text "/many"))).map (·.read.length)
        = some 17 := by decide +kernel
    obtain ⟨s, hs, hread⟩ := map_eq_some_iff.mp hmany
    obtain ⟨rest, rfl, -⟩ := hmet.exists_cons hs
    have := hin.room s mem_cons_self
    omega
  · obtain ⟨scripts, hmet, -, hwhole⟩ := h.resolvable
    have hscript : (scriptAt someFiles (text "/") (some (text "/s"))).map
        (fun s => (s.interpreter, s.read.length)) = some (text "/bin/sh", 2) := by decide +kernel
    obtain ⟨s, hs, heq⟩ := map_eq_some_iff.mp hscript
    obtain ⟨hinterp, hread⟩ := Prod.mk.inj heq
    obtain ⟨rest, rfl, hrest⟩ := hmet.exists_cons hs
    rw [hinterp] at hrest
    have hstop : Met someFiles (text "/") (some (text "/bin/sh")) [] := .stop (by decide +kernel)
    obtain rfl := hrest.unique hstop
    have himage : (imageAt someFiles (text "/") (some (text "/bin/sh"))).isOk := by decide +kernel
    cases hdata : imageAt someFiles (text "/") (some (text "/bin/sh")) with
    | error e => exact absurd (hdata ▸ himage) nofun
    | ok data =>
      have htarget : target (some (text "/s")) [s] = some (text "/bin/sh") := congrArg some hinterp
      have hroom := (hwhole data (by rw [htarget, hdata])).2.1
      rw [hread] at hroom
      exact absurd hroom (by decide)

end Resolution

end Exec
