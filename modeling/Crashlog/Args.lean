import Crashlog.PathBuf
import Mathlib.Algebra.GroupWithZero.Nat

/-!
# Arguments of the UEFI application

The options come first, in any order and number; a command takes all the tokens
behind it. Whatever does not fit is reported by its first token that does not.
-/

namespace Crashlog.Efi

inductive ArgsError where
  | invalidArgument (arg : String)
  | missingArgument (arg : String)
  deriving DecidableEq, Repr

def ArgsError.display : ArgsError → String
  | .missingArgument arg => "Missing argument: " ++ arg
  | .invalidArgument arg => "Invalid argument: " ++ arg

inductive Command where
  | extract (outputPath : Option PathBuf)
  | info (inputPaths : List PathBuf)
  | decode (inputPath : PathBuf)
  | triage (inputPaths : List PathBuf)
  deriving DecidableEq, Repr

structure Args where
  appName : String := ""
  help : Bool := false
  wait : Bool := false
  command : Option Command := none
  verbosity : Nat := 0
  deriving DecidableEq, Repr

def MAX_VERBOSITY_LEVEL : Nat := 3

namespace Args

def isVerbose (token : String) : Bool := "-v".toList.isPrefixOf token.toList

def verbosityOf (token : String) : Nat := min (token.toList.count 'v') MAX_VERBOSITY_LEVEL

/-- A token that is no option, and the tokens behind it. -/
def parseCommand (args : Args) (token : String) (tokens : List String) : Except ArgsError Args :=
  if token = "extract" then
    match tokens with
    | [] => .ok { args with command := some (.extract none) }
    | [path] => .ok { args with command := some (.extract (some path)) }
    | _ :: token :: _ => .error (.invalidArgument token)
  else if token = "info" then .ok { args with command := some (.info tokens) }
  else if token = "decode" then
    match tokens with
    | [] => .error (.missingArgument "FILENAME")
    | [path] => .ok { args with command := some (.decode path) }
    | _ :: token :: _ => .error (.invalidArgument token)
  else if token = "triage" then .ok { args with command := some (.triage tokens) }
  else .error (.invalidArgument token)

/-- The loop over the tokens behind the name of the application. No token is
left behind a command. -/
def parseTokens (args : Args) : List String → Except ArgsError Args
  | [] => .ok args
  | token :: tokens =>
      if token = "-h" ∨ token = "--help" then parseTokens { args with help := true } tokens
      else if token = "-w" ∨ token = "--wait" then parseTokens { args with wait := true } tokens
      else if isVerbose token then parseTokens { args with verbosity := args.verbosity + verbosityOf token } tokens
      else parseCommand args token tokens

/-- There are no tokens where the shell parameters cannot be read. -/
def parse (shellParam : Option (List String)) : Except ArgsError Args :=
  match shellParam with
  | none => .ok { command := some (.extract none), wait := true }
  | some [] => parseTokens { appName := "iclg.efi" } []
  | some (appName :: tokens) => parseTokens { appName } tokens

/-! ## The grammar -/

def IsOption (token : String) : Prop :=
  token = "-h" ∨ token = "--help" ∨ token = "-w" ∨ token = "--wait" ∨ isVerbose token = true

instance (token : String) : Decidable (IsOption token) := inferInstanceAs (Decidable (_ ∨ _))

/-- The tokens of a command, or none. -/
inductive CommandLine : List String → Option Command → Prop
  | none : CommandLine [] none
  | extract : CommandLine ["extract"] (some (.extract .none))
  | extractTo (path : String) : CommandLine ["extract", path] (some (.extract (some path)))
  | info (paths : List String) : CommandLine ("info" :: paths) (some (.info paths))
  | decode (path : String) : CommandLine ["decode", path] (some (.decode path))
  | triage (paths : List String) : CommandLine ("triage" :: paths) (some (.triage paths))

/-- Tokens behind the options that are no command, with the error that names the
first one in the wrong place. -/
inductive Offends : List String → ArgsError → Prop
  | unknown {token : String} {rest : List String} (foreign : ¬ IsOption token)
      (nameless : token ∉ ["extract", "info", "decode", "triage"]) : Offends (token :: rest) (.invalidArgument token)
  | extract (path token : String) (rest : List String) :
      Offends ("extract" :: path :: token :: rest) (.invalidArgument token)
  | decode (path token : String) (rest : List String) :
      Offends ("decode" :: path :: token :: rest) (.invalidArgument token)
  | missing : Offends ["decode"] (.missingArgument "FILENAME")

/-- The arguments with the options read into them. -/
def withOptions (args : Args) (options : List String) : Args :=
  { args with
    help := args.help || options.any fun token => token = "-h" ∨ token = "--help"
    wait := args.wait || options.any fun token => token = "-w" ∨ token = "--wait"
    verbosity := args.verbosity + ((options.filter isVerbose).map verbosityOf).sum }

def withCommand (args : Args) : Option Command → Args
  | none => args
  | some command => { args with command := some command }

theorem with_options_nil (args : Args) : args.withOptions [] = args := by
  simp [withOptions]

/-- The outcome for tokens that begin with their options. -/
inductive Reads (args : Args) : List String → Except ArgsError Args → Prop
  | accepted {options rest : List String} {command : Option Command} (all : ∀ token ∈ options, IsOption token)
      (line : CommandLine rest command) :
      Reads args (options ++ rest) (.ok ((args.withOptions options).withCommand command))
  | rejected {options rest : List String} {error : ArgsError} (all : ∀ token ∈ options, IsOption token)
      (offends : Offends rest error) : Reads args (options ++ rest) (.error error)

variable {args : Args} {token : String} {tokens options rest : List String} {error : ArgsError}

/-- One option, read into the arguments. -/
theorem parse_tokens_option (args : Args) (option : IsOption token) (tokens : List String) :
    parseTokens args (token :: tokens) = parseTokens (args.withOptions [token]) tokens := by
  have short : isVerbose "-h" = false ∧ isVerbose "--help" = false ∧ isVerbose "-w" = false ∧
      isVerbose "--wait" = false := by decide
  rw [parseTokens]
  rcases option with rfl | rfl | rfl | rfl | verbose
  · simp [withOptions, short]
  · simp [withOptions, short]
  · simp [withOptions, short]
  · simp [withOptions, short]
  · have noHelp : ¬ (token = "-h" ∨ token = "--help") := by
      rintro (rfl | rfl)
      · exact absurd verbose (by decide)
      · exact absurd verbose (by decide)
    have noWait : ¬ (token = "-w" ∨ token = "--wait") := by
      rintro (rfl | rfl)
      · exact absurd verbose (by decide)
      · exact absurd verbose (by decide)
    rw [if_neg noHelp, if_neg noWait, if_pos verbose]
    rw [not_or] at noHelp noWait
    simp [withOptions, noHelp, noWait, verbose]

theorem with_options_append (args : Args) (first second : List String) :
    (args.withOptions first).withOptions second = args.withOptions (first ++ second) := by
  simp [withOptions, Bool.or_assoc, Nat.add_assoc]

theorem parse_tokens_options (args : Args) (all : ∀ token ∈ options, IsOption token) (rest : List String) :
    parseTokens args (options ++ rest) = parseTokens (args.withOptions options) rest := by
  induction options generalizing args with
  | nil => rw [List.nil_append, with_options_nil]
  | cons option others ih =>
      rw [List.forall_mem_cons] at all
      rw [List.cons_append, parse_tokens_option args all.1, ih _ all.2, with_options_append, List.singleton_append]

/-- A token that is no option is compared with the names of the commands. -/
theorem parse_tokens_foreign (args : Args) (foreign : ¬ IsOption token) (tokens : List String) :
    (∃ command, CommandLine (token :: tokens) command ∧
      parseTokens args (token :: tokens) = .ok (args.withCommand command)) ∨
      ∃ error, Offends (token :: tokens) error ∧ parseTokens args (token :: tokens) = .error error := by
  have noHelp : ¬ (token = "-h" ∨ token = "--help") := fun help => foreign (by rcases help with rfl | rfl <;> decide)
  have noWait : ¬ (token = "-w" ∨ token = "--wait") := fun wait => foreign (by rcases wait with rfl | rfl <;> decide)
  have quiet : ¬ isVerbose token = true := fun verbose => foreign (.inr (.inr (.inr (.inr verbose))))
  rw [parseTokens, if_neg noHelp, if_neg noWait, if_neg quiet]
  unfold parseCommand
  split_ifs with extract info decode triage
  · subst extract
    match tokens with
    | [] => exact .inl ⟨_, .extract, rfl⟩
    | [path] => exact .inl ⟨_, .extractTo path, rfl⟩
    | path :: extra :: more => exact .inr ⟨_, .extract path extra more, rfl⟩
  · subst info
    exact .inl ⟨_, .info tokens, rfl⟩
  · subst decode
    match tokens with
    | [] => exact .inr ⟨_, .missing, rfl⟩
    | [path] => exact .inl ⟨_, .decode path, rfl⟩
    | path :: extra :: more => exact .inr ⟨_, .decode path extra more, rfl⟩
  · subst triage
    exact .inl ⟨_, .triage tokens, rfl⟩
  · exact .inr ⟨_, .unknown foreign (by simp [extract, info, decode, triage]), rfl⟩

/-- Every line of tokens is read. -/
theorem reads_parse_tokens (args : Args) (tokens : List String) : Reads args tokens (parseTokens args tokens) := by
  have split : ∃ options rest, tokens = options ++ rest ∧ (∀ token ∈ options, IsOption token) ∧
      ∀ first, rest.head? = some first → ¬ IsOption first := by
    refine ⟨tokens.takeWhile (IsOption ·), tokens.dropWhile (IsOption ·),
      (List.takeWhile_append_dropWhile).symm, ?_, ?_⟩
    · intro token member
      have holds : decide (IsOption token) = true :=
        List.mem_takeWhile_imp (p := fun token => decide (IsOption token)) member
      exact of_decide_eq_true holds
    · intro first starts
      have stops := List.head?_dropWhile_not (fun token => decide (IsOption token)) tokens
      rw [starts] at stops
      simpa using stops
  obtain ⟨options, rest, rfl, all, foreign⟩ := split
  rw [parse_tokens_options args all]
  cases rest with
  | nil => exact .accepted all .none
  | cons first others =>
      rcases parse_tokens_foreign (args.withOptions options) (foreign first rfl) others with
        ⟨command, line, parsed⟩ | ⟨error, offends, parsed⟩
      · rw [parsed]
        exact .accepted all line
      · rw [parsed]
        exact .rejected all offends

theorem command_line_parses (args : Args) {command : Option Command} (line : CommandLine rest command) :
    parseTokens args rest = .ok (args.withCommand command) := by
  cases line <;> rfl

theorem offends_parses (args : Args) (offends : Offends rest error) : parseTokens args rest = .error error := by
  cases offends with
  | @unknown token others foreign nameless =>
      rcases parse_tokens_foreign args foreign others with ⟨command, line, _⟩ | ⟨other, offends, parsed⟩
      · cases line <;> exact absurd nameless (by decide)
      · cases offends with
        | unknown => exact parsed
        | extract => exact absurd nameless (by decide)
        | decode => exact absurd nameless (by decide)
        | missing => exact absurd nameless (by decide)
  | extract path token rest => rfl
  | decode path token rest => rfl
  | missing => rfl

/-- What the loop returns is what the grammar says. -/
theorem parse_tokens_eq_iff (args : Args) (tokens : List String) (outcome : Except ArgsError Args) :
    parseTokens args tokens = outcome ↔ Reads args tokens outcome := by
  constructor
  · rintro rfl
    exact reads_parse_tokens args tokens
  · rintro (⟨all, line⟩ | ⟨all, offends⟩)
    · rw [parse_tokens_options args all, command_line_parses _ line]
    · rw [parse_tokens_options args all, offends_parses _ offends]

/-- The arguments that are read are those of the grammar, and the error names
the first token in the wrong place. -/
theorem parse_eq_iff (shellParam : Option (List String)) (outcome : Except ArgsError Args) :
    parse shellParam = outcome ↔
      match shellParam with
      | none => outcome = .ok { command := some (.extract none), wait := true }
      | some tokens => Reads { appName := tokens.head?.getD "iclg.efi" } tokens.tail outcome := by
  match shellParam with
  | none => exact eq_comm
  | some [] => exact parse_tokens_eq_iff _ _ _
  | some (appName :: tokens) => exact parse_tokens_eq_iff _ _ _

/-! ## Writing arguments -/

/-- One token for each level of verbosity. -/
def optionTokens (args : Args) : List String :=
  (if args.help then ["--help"] else []) ++ (if args.wait then ["--wait"] else []) ++
    List.replicate args.verbosity "-v"

def commandTokens : Option Command → List String
  | none => []
  | some (.extract none) => ["extract"]
  | some (.extract (some path)) => ["extract", path]
  | some (.info paths) => "info" :: paths
  | some (.decode path) => ["decode", path]
  | some (.triage paths) => "triage" :: paths

theorem command_line_tokens (command : Option Command) : CommandLine (commandTokens command) command := by
  match command with
  | none => exact .none
  | some (.extract none) => exact .extract
  | some (.extract (some path)) => exact .extractTo path
  | some (.info paths) => exact .info paths
  | some (.decode path) => exact .decode path
  | some (.triage paths) => exact .triage paths

theorem option_tokens_options (args : Args) : ∀ token ∈ args.optionTokens, IsOption token := by
  intro token member
  simp only [optionTokens, List.mem_append] at member
  rcases member with (help | wait) | verbose
  · split_ifs at help
    · rw [List.mem_singleton.mp help]
      decide
    · cases help
  · split_ifs at wait
    · rw [List.mem_singleton.mp wait]
      decide
    · cases wait
  · rw [List.eq_of_mem_replicate verbose]
    decide

theorem with_option_tokens (args : Args) :
    withOptions { appName := args.appName } args.optionTokens = { args with command := none } := by
  have quiet : isVerbose "--help" = false ∧ isVerbose "--wait" = false ∧ isVerbose "-v" = true ∧
      verbosityOf "-v" = 1 := by decide
  obtain ⟨appName, help, wait, command, verbosity⟩ := args
  cases help <;> cases wait <;> simp [withOptions, optionTokens, quiet]

/-- All arguments can be given, and are read as they were written. -/
theorem parse_written (args : Args) :
    parse (some (args.appName :: (args.optionTokens ++ commandTokens args.command))) = .ok args := by
  have read : Reads { appName := args.appName } (args.optionTokens ++ commandTokens args.command)
      (.ok ((withOptions { appName := args.appName } args.optionTokens).withCommand args.command)) :=
    .accepted args.option_tokens_options (command_line_tokens args.command)
  rw [with_option_tokens] at read
  have whole : withCommand { args with command := none } args.command = args := by
    obtain ⟨appName, help, wait, command, verbosity⟩ := args
    cases command <;> rfl
  rw [whole] at read
  exact (parse_tokens_eq_iff _ _ _).mpr read

end Args

end Crashlog.Efi
