import Renewal.Diff.Matching
import Renewal.Text.Blank
import Renewal.Text.Quoted

/-! # Options of the command line

An option is written with one or two dashes and may have its value after an equals sign. A switch
can stand alone or have a word for its value. Options may be repeated; the last value counts.
Asking for the version or for help comes before everything else that could be wrong with a value.
-/

namespace Renewal.CommandLine

/-- An option. -/
inductive CommandOption where
  | version
  | directory
  | path
  | name
  | reset
  | diff
  | change
  | help
deriving DecidableEq

/-- What an option takes. -/
inductive Arity where
  /-- Nothing. -/
  | none
  /-- A value. -/
  | value
  /-- A value or nothing. -/
  | switch
deriving DecidableEq

namespace CommandOption

/-- The options that are written by a whole word. -/
def words : List (String × CommandOption) :=
  [("--version", .version), ("-cd", .directory), ("-path", .path), ("-name", .name),
    ("-reset", .reset), ("-diff", .diff), ("-change", .change), ("--help", .help)]

/-- The option that a word writes. -/
def ofWord? (word : Text) : Option CommandOption :=
  (words.find? fun (w, _) => Text.ofString w == word).map Prod.snd

/-- The option that a letter after one dash writes. -/
def ofLetter? (c : CodePoint) : Option CommandOption :=
  if c = ('h' : CodePoint) then some .help else none

/-- The word for an option. -/
def word (o : CommandOption) : Text :=
  ((words.find? fun (_, other) => other == o).map fun (w, _) => w).getD ""

/-- What an option takes. -/
def arity : CommandOption → Arity
  | .version | .help => .none
  | .directory | .path | .name => .value
  | .reset | .diff | .change => .switch

/-- Whether an option is answered before the others. -/
def isEager : CommandOption → Bool
  | .version | .help => true
  | _ => false

end CommandOption

/-- What is wrong with a command line. -/
inductive UsageError where
  /-- There is no such option; some have similar words. -/
  | noSuchOption (word : Text) (similar : List Text)
  | needsValue (o : CommandOption)
  | takesNoValue (o : CommandOption)
  | notFlag (o : CommandOption) (word : Text)
  | extraArguments (words : List Text)
deriving DecidableEq

/-- What a command line gives an option. -/
inductive Given where
  /-- Nothing. -/
  | bare
  | value (t : Text)
deriving DecidableEq

/-- What has been read of a command line. -/
structure Reading where
  /-- The options in order. -/
  options : List (CommandOption × Given) := []
  /-- The words that belong to no option. -/
  extra : List Text := []

/-- Whether a word is written like an option. -/
def looksLikeOption (word : Text) : Bool :=
  word.head? == some ('-' : CodePoint) && 1 < word.length

/-- A word cut at its first equals sign. -/
def cutAtEquals (word : Text) : Text × Option Text :=
  let front := word.takeWhile (· != ('=' : CodePoint))
  match word.drop front.length with
  | [] => (front, none)
  | _ :: value => (front, some value)

/-- How many code points two words have in common, by their longest common runs. -/
def commonSize (a b : Text) : Nat :=
  (Diff.matchingBlocks (fun _ => true) a b).foldl (fun n block => n + block.size) 0

/-- The words of options that have at least three fifths in common with a word, the most similar
first and at most three. -/
def similarWords (word : Text) : List Text :=
  let candidates := CommandOption.words.map fun (w, _) =>
    (Text.ofString w, commonSize (Text.ofString w) word)
  let close := candidates.filter fun (w, common) => 3 * (w.length + word.length) ≤ 10 * common
  let better (a b : Text × Nat) : Bool :=
    let left := a.2 * (b.1.length + word.length)
    let right := b.2 * (a.1.length + word.length)
    if left = right then b.1.le a.1 else right < left
  ((close.mergeSort better).take 3).map Prod.fst

/-- Reads letters after one dash; each has to be an option that takes nothing. -/
def readLetters : Text → Except UsageError (List (CommandOption × Given))
  | [] => .ok []
  | c :: rest =>
    match CommandOption.ofLetter? c with
    | none => .error (.noSuchOption ['-', c] [])
    | some o => (readLetters rest).map ((o, .bare) :: ·)

/-- What a word and its value, given after an equals sign, say; also the words that come before the
rest now. -/
def readWord (o : CommandOption) (explicit : Option Text) (rest : List Text) :
    Except UsageError ((CommandOption × Given) × List Text) :=
  match o.arity with
  | .none =>
    match explicit with
    | some _ => .error (.takesNoValue o)
    | none => .ok ((o, .bare), rest)
  | .value =>
    match explicit.toList ++ rest with
    | [] => .error (.needsValue o)
    | value :: rest => .ok ((o, .value value), rest)
  | .switch =>
    match explicit.toList ++ rest with
    | [] => .ok ((o, .bare), [])
    | value :: rest =>
      if looksLikeOption value then .ok ((o, .bare), value :: rest)
      else .ok ((o, .value value), rest)

/-- Reads a word that is written like an option. -/
def readOption (word : Text) (rest : List Text) :
    Except UsageError (List (CommandOption × Given) × List Text) :=
  let (front, explicit) := cutAtEquals word
  match CommandOption.ofWord? front with
  | some o => (readWord o explicit rest).map fun (given, rest) => ([given], rest)
  | none =>
    if ("--" : Text).isPrefixOf word then .error (.noSuchOption front (similarWords front))
    else (readLetters word.tail).map fun given => (given, rest)

/-- Reads the words of a command line, at most `bound` of them. -/
def readWords : (bound : Nat) → Reading → List Text → Except UsageError Reading
  | 0, reading, _ => .ok reading
  | _ + 1, reading, [] => .ok reading
  | bound + 1, reading, word :: rest =>
    if word = ("--" : Text) then .ok { reading with extra := reading.extra ++ rest }
    else if looksLikeOption word then
      match readOption word rest with
      | .error e => .error e
      | .ok (given, rest) =>
        readWords bound { reading with options := reading.options ++ given } rest
    else readWords bound { reading with extra := reading.extra ++ [word] } rest

/-- Reads a command line. -/
def readAll (words : List Text) : Except UsageError Reading :=
  readWords (words.foldl (fun n w => n + (w.length + 1)) 1) {} words

/-- What a command line asks for. -/
structure Arguments where
  /-- The directory to work in. -/
  directory : Text := "."
  /-- The root of the tree. -/
  path : Text := "."
  /-- The pattern for names of files. -/
  name : Option Text := none
  reset : Bool := false
  diff : Bool := false
  change : Bool := false
deriving DecidableEq

/-- What a command line asks for, or only the version or help. -/
inductive Request where
  | version
  | help
  | run (arguments : Arguments)
deriving DecidableEq

/-- The words for a switch that is set. -/
def trueWords : List Text := ["1", "true", "t", "yes", "y", "on"]

/-- The words for a switch that is not set. -/
def falseWords : List Text := ["", "0", "false", "f", "no", "n", "off"]

/-- Whether a switch is set. -/
def readFlag (o : CommandOption) : Given → Except UsageError Bool
  | .bare => .ok true
  | .value t =>
    let word := t.strip.asciiLower
    if trueWords.contains word then .ok true
    else if falseWords.contains word then .ok false
    else .error (.notFlag o t)

/-- The text of a value. -/
def Given.text : Given → Text
  | .bare => []
  | .value t => t

/-- Arguments with an option. -/
def Arguments.set (a : Arguments) (o : CommandOption) (given : Given) :
    Except UsageError Arguments :=
  match o with
  | .directory => .ok { a with directory := given.text }
  | .path => .ok { a with path := given.text }
  | .name => .ok { a with name := some given.text }
  | .reset => (readFlag o given).map fun b => { a with reset := b }
  | .diff => (readFlag o given).map fun b => { a with diff := b }
  | .change => (readFlag o given).map fun b => { a with change := b }
  | .version | .help => .ok a

namespace Reading

/-- The options, each once, in the order in which they first occur. -/
def inOrder (r : Reading) : List CommandOption :=
  (r.options.map Prod.fst).eraseDups

/-- The last value of an option. -/
def lastGiven (r : Reading) (o : CommandOption) : Given :=
  (r.options.reverse.lookup o).getD .bare

/-- The arguments that have been read. -/
def arguments (r : Reading) : Except UsageError Arguments :=
  r.inOrder.foldlM (fun a o => a.set o (r.lastGiven o)) {}

/-- What has been asked for. -/
def request (r : Reading) : Except UsageError Request :=
  match r.inOrder.find? CommandOption.isEager with
  | some .version => .ok .version
  | some _ => .ok .help
  | none => do
    let a ← r.arguments
    if r.extra.isEmpty then return .run a else throw (.extraArguments r.extra)

end Reading

/-- What a command line asks for. -/
def parse (words : List Text) : Except UsageError Request :=
  readAll words >>= Reading.request

/-- What is said of a wrong command line. -/
def UsageError.message : UsageError → Text
  | .noSuchOption word similar =>
    let hint : Text := match similar with
      | [] => ""
      | [one] => .concat [" Did you mean ", one.quoted, "?"]
      | several => .concat [" (Did you mean one of: ",
          .joinWith ", " ((several.mergeSort Text.le).map Text.quoted), "?)"]
    .concat ["No such option ", word.quoted, ".", hint]
  | .needsValue o => .concat ["Option ", o.word.quoted, " requires an argument."]
  | .takesNoValue o => .concat ["Option ", o.word.quoted, " does not take a value."]
  | .notFlag o word => .concat ["Invalid value for ", o.word.quoted, ": ", word.quoted,
      " is not a valid boolean. Recognized values: ",
      .joinWith ", " (Text.sortedSet (trueWords ++ falseWords))]
  | .extraArguments words => .concat ["Got unexpected extra argument",
      (if words.length = 1 then "" else "s"), " (", .joinWith " " words, ")"]

/-- Whether a usage line is shown with an error. -/
def UsageError.showsUsage : UsageError → Bool
  | .needsValue _ | .takesNoValue _ => false
  | _ => true

end Renewal.CommandLine
