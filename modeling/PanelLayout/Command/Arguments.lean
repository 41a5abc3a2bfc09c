/-!
# Command-line arguments

Arguments are taken from left to right, and the first that is wrong, or that asks for help or the
version, decides.  Options may stand between the files; `--` ends them.  A file name, and the
value of an option, must not be empty.
-/

namespace PanelLayout.Command

/-- A check of some documents. -/
structure Check where
  files : List String
  rules : Option String
  json : Bool
  deriving DecidableEq, Repr

/-- What the user asks for. -/
inductive Request where
  | help
  | version
  | check (request : Check)
  deriving DecidableEq, Repr

/-- What is wrong with the arguments. -/
inductive UsageError where
  | noFiles
  | emptyFile
  | unknownOption (argument : String)
  | missingValue (option : String)
  | unexpectedValue (option : String)
  | repeated (option : String)
  deriving DecidableEq, Repr

/-- How an argument is spelt. -/
inductive Argument where
  | separator
  | file (name : String)
  | long (name : String) (value : Option String)
  | short (letter : Char)
  deriving DecidableEq, Repr

/-- The spelling of an argument.  A lone dash is a file name. -/
def Argument.of (text : String) : Argument :=
  match text.toList with
  | ['-', '-'] => .separator
  | '-' :: '-' :: cs =>
    let name := String.ofList (cs.takeWhile (· ≠ '='))
    match cs.dropWhile (· ≠ '=') with
    | _ :: value => .long name (some (String.ofList value))
    | [] => .long name none
  | '-' :: c :: _ => .short c
  | _ => .file text

def Check.addFile (request : Check) (name : String) : Except UsageError Check :=
  if name.isEmpty then .error .emptyFile else .ok { request with files := request.files ++ [name] }

def Check.setRules (request : Check) (name : String) : Except UsageError Check :=
  if name.isEmpty then .error (.missingValue "--rules")
  else if request.rules.isSome then .error (.repeated "--rules")
  else .ok { request with rules := some name }

def Check.setJson (request : Check) : Except UsageError Check :=
  if request.json then .error (.repeated "--json") else .ok { request with json := true }

/-- A complete check has a file. -/
def Check.finish (request : Check) : Except UsageError Request :=
  if request.files.isEmpty then .error .noFiles else .ok (.check request)

/-- Adds the files behind `--`. -/
def addFiles (request : Check) : List String → Except UsageError Check
  | [] => .ok request
  | name :: rest => do addFiles (← request.addFile name) rest

/-- Reads the arguments that remain.  `valueWanted` says that `--rules` still wants its value. -/
def parseFrom (request : Check) (valueWanted : Bool) :
    List String → Except UsageError Request
  | [] => if valueWanted then .error (.missingValue "--rules") else request.finish
  | text :: rest =>
    match Argument.of text, valueWanted with
    | .file name, true => do parseFrom (← request.setRules name) false rest
    -- Nothing that is spelt like an option can be the value of one.
    | _, true => .error (.missingValue "--rules")
    | .file name, false => do parseFrom (← request.addFile name) false rest
    -- Whatever stands behind the separator is a file.
    | .separator, false => do (← addFiles request rest).finish
    | .short letter, false =>
      if letter = 'h' then .ok .help
      else if letter = 'V' then .ok .version
      else .error (.unknownOption text)
    | .long name value, false =>
      match name, value with
      | "help", none => .ok .help
      | "version", none => .ok .version
      | "json", none => do parseFrom (← request.setJson) false rest
      | "rules", none => parseFrom request true rest
      | "rules", some value => do parseFrom (← request.setRules value) false rest
      | "help", some _ | "version", some _ | "json", some _ =>
        .error (.unexpectedValue ("--" ++ name))
      | _, _ => .error (.unknownOption text)

/-- What the arguments ask for. -/
def parse (arguments : List String) : Except UsageError Request :=
  parseFrom ⟨[], none, false⟩ false arguments

end PanelLayout.Command
