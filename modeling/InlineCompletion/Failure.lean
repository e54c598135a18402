import InlineCompletion.Text.Quoted

/-!
What a model call, or anything else that a host supplies, can fail with.
-/

namespace InlineCompletion

inductive FailureKind where
  | connection
  | value
  | runtime
  | timeout
  | key
  | type
  | missingAttribute
  | overflow
  | validation
  | configuration
  | unsupportedProvider
  | moduleNotFound
  | decoding
  | fileExists
  | notAFolder
  | isAFolder
  /-- The call was stopped on purpose; never reported. -/
  | aborted
  /-- The user stopped the program. -/
  | interrupt
  /-- A stream was read beyond its end. -/
  | streamEnd
  deriving DecidableEq, Repr

def FailureKind.name : FailureKind → Text
  | connection => "ConnectionError"
  | value => "ValueError"
  | runtime => "RuntimeError"
  | timeout => "TimeoutError"
  | key => "KeyError"
  | type => "TypeError"
  | missingAttribute => "AttributeError"
  | overflow => "OverflowError"
  | validation => "ValidationError"
  | configuration => "ConfigurationError"
  | unsupportedProvider => "UnsupportedProviderError"
  | moduleNotFound => "ModuleNotFoundError"
  | decoding => "UnicodeDecodeError"
  | fileExists => "FileExistsError"
  | notAFolder => "NotADirectoryError"
  | isAFolder => "IsADirectoryError"
  | aborted => "RequestAborted"
  | interrupt => "KeyboardInterrupt"
  | streamEnd => "StopAsyncIteration"

structure Failure where
  kind : FailureKind
  text : Text
  deriving DecidableEq, Repr

/-- The name in a report: kinds that belong to a part of the program say to which. -/
def FailureKind.reportName (kind : FailureKind) : Text :=
  match kind with
  | aborted => "ollamacopilot.llm.models." ++ kind.name
  | configuration => "ollamacopilot.config.settings." ++ kind.name
  | unsupportedProvider => "ollamacopilot.llm.client_factory." ++ kind.name
  | _ => kind.name

/-- A missing key is shown as it would be written. -/
def Failure.message (failure : Failure) : Text :=
  if failure.kind = .key then Text.quoted failure.text else failure.text

/-- The failure as a log record shows it. -/
def Failure.report (failure : Failure) : Text :=
  if failure.message.isEmpty then failure.kind.reportName
  else failure.kind.reportName ++ ": " ++ failure.message

end InlineCompletion
