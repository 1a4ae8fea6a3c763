import Tickr.Message

/-! Error values as handlers can build them. `errors.Is` and `errors.As` walk the tree from
the outside in, and a join from left to right. -/
namespace Tickr

/-- A join of more than two errors is nested, which changes neither its text nor the
order in which it is walked. `errors.Join` puts a newline between its errors, a format
with several %w verbs whatever stands between them. -/
inductive GoError where
  | text (message : String)
  | canceled
  | deadlineExceeded
  | skip (reason : String)
  | deadLetter (err : GoError)
  | retryAfter (delay : Duration) (err : GoError)
  | wrap (before : String) (err : GoError) (after : String)
  | join (left : GoError) (between : String) (right : GoError)
  deriving DecidableEq, Repr

def retryAfter (delay : Duration) (err : Option GoError) : GoError :=
  .retryAfter delay (err.getD (.text "retry requested"))

def deadLetter (err : Option GoError) : GoError := .deadLetter (err.getD (.text "dead-lettered"))

def skip (reason : String) : GoError := .skip reason

def join (left right : GoError) : GoError := .join left "\n" right

/-- `errors.Is(err, context.Canceled)`. -/
def GoError.isCanceled : GoError → Bool
  | .canceled => true
  | .deadLetter err | .retryAfter _ err | .wrap _ err _ => err.isCanceled
  | .join left _ right => left.isCanceled || right.isCanceled
  | _ => false

def isSkip : GoError → Bool
  | .skip _ => true
  | .deadLetter err | .retryAfter _ err | .wrap _ err _ => isSkip err
  | .join left _ right => isSkip left || isSkip right
  | _ => false

def isDeadLetter : GoError → Bool
  | .deadLetter _ => true
  | .retryAfter _ err | .wrap _ err _ => isDeadLetter err
  | .join left _ right => isDeadLetter left || isDeadLetter right
  | _ => false

def extractRetryAfter : GoError → Option Duration
  | .retryAfter delay _ => some delay
  | .deadLetter err | .wrap _ err _ => extractRetryAfter err
  | .join left _ right => (extractRetryAfter left).or (extractRetryAfter right)
  | _ => none

/-! ### Texts -/

/-- The digits of `value / 10^digits` behind the point, without trailing zeros. -/
def fraction (value digits : Nat) : String :=
  let shown := toString (value % Nat.pow 10 digits)
  let padded := List.replicate (digits - shown.length) '0' ++ shown.toList
  let kept := (padded.reverse.dropWhile (· = '0')).reverse
  if kept = [] then "" else "." ++ String.ofList kept

/-- Below a second in the largest unit that fits, from a second on in h, m and s. -/
def magnitude (u : Nat) : String :=
  if u = 0 then "0s"
  else if u < 1000 then toString u ++ "ns"
  else if u < 1000000 then toString (u / 1000) ++ fraction u 3 ++ "µs"
  else if u < 1000000000 then toString (u / 1000000) ++ fraction u 6 ++ "ms"
  else
    let seconds := u / 1000000000
    let minutes := seconds / 60
    (if minutes / 60 = 0 then "" else toString (minutes / 60) ++ "h") ++
      (if minutes = 0 then "" else toString (minutes % 60) ++ "m") ++
      toString (seconds % 60) ++ fraction u 9 ++ "s"

def Duration.string (d : Duration) : String := (if d < 0 then "-" else "") ++ magnitude d.natAbs

example : Duration.string 0 = "0s" ∧ Duration.string (-1500000) = "-1.5ms" ∧
    Duration.string (90 * Duration.second) = "1m30s" ∧
    Duration.string (3600000000000 + 500000000) = "1h0m0.5s" := by decide +kernel

def hexDigits (n : Nat) : String := String.ofList [Nat.digitChar (n / 16), Nat.digitChar (n % 16)]

/-- One character under the verb %q, with every character beyond ASCII taken as printable. -/
def quoteChar (c : Char) : String :=
  match c.toNat with
  | 7 => "\\a"
  | 8 => "\\b"
  | 9 => "\\t"
  | 10 => "\\n"
  | 11 => "\\v"
  | 12 => "\\f"
  | 13 => "\\r"
  | 34 => "\\\""
  | 92 => "\\\\"
  | n => if n < 32 || n = 127 then "\\x" ++ hexDigits n else c.toString

def quote (text : String) : String := "\"" ++ String.join (text.toList.map quoteChar) ++ "\""

def GoError.error : GoError → String
  | .text message => message
  | .canceled => "context canceled"
  | .deadlineExceeded => "context deadline exceeded"
  | .skip reason => if reason = "" then "tickr: skipped" else "tickr: skipped: " ++ reason
  | .deadLetter err => "tickr: dead-letter: " ++ err.error
  | .retryAfter delay err => "tickr: retry after " ++ delay.string ++ ": " ++ err.error
  | .wrap before err after => before ++ err.error ++ after
  | .join left between right => left.error ++ between ++ right.error

/-! ### Handler calls -/

/-- What a call to a handler can do, short of taking the process down. -/
inductive Behaviour where
  | returns (err : Option GoError)
  | panicsError (err : GoError)
  | panicsValue (shown : String)
  deriving DecidableEq, Repr

/-- `safeInvoke` and `safeInvokeBatch`, which differ in the text they prepend. -/
def recovered (what : String) : Behaviour → Option GoError
  | .returns err => err
  | .panicsError err => some (.wrap what err "")
  | .panicsValue shown => some (.text (what ++ shown))

def safeInvoke : Behaviour → Option GoError := recovered "tickr: handler panic: "

def safeInvokeBatch : Behaviour → Option GoError := recovered "tickr: batch handler panic: "

end Tickr
