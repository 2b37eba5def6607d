import RigPack.CommandLine.Request

/-!
# Reading command lines

`Invocation.parse` reads the words of a command line from left to right.  A value is checked when
the next option or value comes, or at the end of its level, so that an unknown word is reported
before a bad value in front of it.  A command starts a level of its own, which is read to its end
before the last value in front of the command is checked.
-/

namespace RigPack.CommandLine

/-- What was read but not checked. -/
inductive Pending
  | nothing
  /-- An option whose value has to come. -/
  | option (parameter : Parameter)
  | value (parameter : Parameter) (word : String)
  deriving DecidableEq

/-- How far a level was read. -/
structure Progress where
  given : Given
  pending : Pending
  /-- Whether a value on its own came. -/
  hasOperand : Bool
  /-- Whether two dashes came, behind which all words are values. -/
  valuesOnly : Bool

namespace Progress

/-- The start of a level. -/
def initial : Progress :=
  ⟨.nothing, .nothing, false, false⟩

/-- Whether the next word is the value of an option, unless it starts with a dash. -/
def awaitsValue (progress : Progress) : Bool :=
  match progress.pending with
  | .option _ => !progress.valuesOnly
  | _ => false

/-- Checks what was not checked. -/
def settle (progress : Progress) : Except Refusal Progress := do
  match progress.pending with
  | .nothing => return progress
  | .option _ => throw .missingValue
  | .value parameter word =>
    return { progress with given := ← progress.given.put parameter word, pending := .nothing }

/-- Adds an option without value. -/
def turnOn (progress : Progress) (s : Switch) : Except Refusal Progress := do
  let progress ← progress.settle
  return { progress with given := ← progress.given.turnOn s }

/-- Adds an option with the value that it came with, or one whose value has to come. -/
def option (progress : Progress) (parameter : Parameter) (attached : Option String) :
    Except Refusal Progress := do
  let progress ← progress.settle
  match attached with
  | some word => return { progress with given := ← progress.given.put parameter word }
  | none => return { progress with pending := .option parameter }

/-- Adds a word with two dashes in front.  A value is attached by an equals sign. -/
def long (level : Level) (progress : Progress) (word : List Char) : Except Refusal Progress :=
  let name := String.ofList (word.takeWhile (· ≠ '='))
  let attached := ((word.dropWhile (· ≠ '=')).tail?).map String.ofList
  match level.long? name, attached with
  | none, _ => .error (.unknownWord ("--" ++ name))
  | some (.switch s), none => progress.turnOn s
  | some (.switch _), some _ => .error (.unwantedValue ("--" ++ name))
  | some (.parameter parameter), attached => progress.option parameter attached

/-- Adds the letters of a word with a dash in front.  An option's value follows its letter. -/
def letters (level : Level) (progress : Progress) : List Char → Except Refusal Progress
  | [] => .ok progress
  | c :: cs =>
    match level.letter? c, cs with
    | none, _ => .error (.unknownWord (String.ofList ['-', c]))
    | some (.switch s), cs => do letters level (← progress.turnOn s) cs
    | some (.parameter parameter), [] => progress.option parameter none
    | some (.parameter parameter), '=' :: value =>
      progress.option parameter (some (String.ofList value))
    | some (.parameter parameter), value =>
      progress.option parameter (some (String.ofList value))

/-- The refusal of a value for which there is no place. -/
def misplaced (level : Level) (progress : Progress) (word : String) : Refusal :=
  if level.commands.isEmpty || (progress.valuesOnly && (level.command? word).isSome) then
    .unknownWord word
  else .unknownCommand word

/-- Adds a value: that of the option in front, or one on its own. -/
def word (level : Level) (progress : Progress) (word : String) : Except Refusal Progress := do
  match progress.pending, progress.valuesOnly with
  | .option parameter, false => return { progress with pending := .value parameter word }
  | _, _ =>
    match level.operand?, progress.hasOperand with
    | some parameter, false =>
      let progress ← progress.settle
      return { progress with pending := .value parameter word, hasOperand := true }
    | _, _ => throw (misplaced level progress word)

/-- Adds a word that is no command. -/
def add (level : Level) (progress : Progress) (word : String) : Except Refusal Progress :=
  if progress.valuesOnly then progress.word level word
  else
    match word.toList with
    | ['-'] => progress.word level word
    | ['-', '-'] => .ok { progress with valuesOnly := true }
    | '-' :: '-' :: rest => progress.long level rest
    | '-' :: rest => progress.letters level rest
    | _ => progress.word level word

end Progress

/-- The refusal that describes the commands which the words lead to. -/
def describe (level : Level) : List String → Refusal
  | [] => .help
  | word :: words =>
    match level.command? word, words with
    | none, _ => .unknownCommand word
    | some (.level next), words => describe next words
    | some .help, [] => .help
    | some .help, other :: _ => .unknownCommand other

/-- Where a word leads if it is a command where it stands. -/
def commandAt? (level : Level) (progress : Progress) (word : String) : Option Target :=
  if progress.valuesOnly || progress.awaitsValue then none else level.command? word

/-- Reads the words of a level and of those that its command leads to. -/
def parseLevel (level : Level) (progress : Progress) : List String → Except Refusal Invocation
  | [] => do
    let progress ← progress.settle
    return ⟨progress.given.projectFolder, ← progress.given.request level⟩
  | word :: words =>
    match commandAt? level progress word with
    | some .help => .error (describe level words)
    | some (.level next) => do
      let inner ← parseLevel next .initial words
      let progress ← progress.settle
      return { inner with projectFolder := inner.projectFolder.or progress.given.projectFolder }
    | none => do parseLevel level (← progress.add level word) words

/-- The invocation that the words of a command line spell. -/
def Invocation.parse (words : List String) : Except Refusal Invocation :=
  parseLevel .top .initial words

example : Invocation.parse ["-C", "a", "tree", "-d", "3", "--project-dir=b"]
    = .ok ⟨some "b", some (.tree 3)⟩ := rfl
example : Invocation.parse ["export", "p", "-o", "", "--size"] = .error (.unknownWord "--size") :=
  rfl
example : Invocation.parse ["config"] = .error .helpForNothing := rfl

end RigPack.CommandLine
