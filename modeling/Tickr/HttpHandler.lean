import Tickr.Outcome

/-! The HTTP handler's reading of a response. The value of a Retry-After header comes from the
remote server, as whatever bytes it sends. -/
namespace Tickr.Http

/-! ### strings.TrimSpace and strconv.Atoi -/

/-- The code points that `unicode.IsSpace` accepts. -/
def whiteSpace : List Char :=
  ['\t', '\n', '\x0b', '\x0c', '\r', ' ', '\u0085', '\u00a0', '\u1680'] ++
    (List.range 11).map (fun i => Char.ofNat (0x2000 + i)) ++
    ['\u2028', '\u2029', '\u202f', '\u205f', '\u3000']

/-- Drops what stands at the front, one at a time; a round for each byte is more than enough. -/
def dropLeading (dropped : List (List UInt8)) : Nat → List UInt8 → List UInt8
  | 0, bytes => bytes
  | rounds + 1, bytes =>
    match dropped.find? (fun encoded => encoded.isPrefixOf bytes) with
    | some encoded => dropLeading dropped rounds (bytes.drop encoded.length)
    | none => bytes

def trimSpace (v : List UInt8) : List UInt8 :=
  let spaces := whiteSpace.map String.utf8EncodeChar
  let left := dropLeading spaces v.length v
  (dropLeading (spaces.map List.reverse) left.length left.reverse).reverse

def digit (b : UInt8) : Option Nat := if 48 ≤ b ∧ b ≤ 57 then some (b.toNat - 48) else none

/-- One or more digits. -/
def decimal (bytes : List UInt8) : Option Nat :=
  if bytes = [] then none else bytes.foldlM (fun n b => (digit b).map fun d => 10 * n + d) 0

def fitsInt (n : Int) : Bool := -9223372036854775808 ≤ n ∧ n ≤ 9223372036854775807

/-- An optional sign and a decimal number that fits in 64 bits. -/
def atoi (bytes : List UInt8) : Option Int :=
  let value := match bytes with
    | 45 :: digits => (decimal digits).map fun n => -(n : Int)
    | 43 :: digits => (decimal digits).map fun n => (n : Int)
    | digits => (decimal digits).map fun n => (n : Int)
  value.filter fitsInt

/-! ### parseRetryAfter -/

def maxDuration : Duration := 9223372036854775807

/-- Arithmetic on durations wraps modulo 2^64. -/
def wrap (d : Int) : Duration := d.bmod 18446744073709551616

/-- `time.Until`, which saturates. -/
def untilTime (t now : Time) : Duration := max (-maxDuration - 1) (min maxDuration (t - now))

/-- `parseTime` is `http.ParseTime`, of which nothing is used. -/
def parseRetryAfter (parseTime : List UInt8 → Option Time) (now : Time) (v : List UInt8) : Option Duration :=
  let v := trimSpace v
  let date := (parseTime v).map fun t => if 0 < untilTime t now then untilTime t now else 0
  if v = [] then none
  else
    match atoi v with
    | some secs => if 0 ≤ secs then some (wrap (secs * Duration.second)) else date
    | none => date

example : parseRetryAfter (fun _ => none) 0 " 120\r\n".toByteArray.toList = some (2 * Duration.minute) ∧
    parseRetryAfter (fun _ => none) 0 "-1".toByteArray.toList = none ∧
    parseRetryAfter (fun _ => some (-5)) 0 "Wed".toByteArray.toList = some 0 := by decide +kernel

/-! ### DefaultClassifier -/

/-- Caps the body at 200 bytes. -/
def snip (b : ByteArray) : ByteArray := if b.size ≤ 200 then b else b.extract 0 200 ++ "…".toByteArray

/-- The header is the value of Retry-After, empty if there is none. -/
structure Response where
  statusCode : Int
  retryAfter : List UInt8
  body : ByteArray

/-- What the classifier returns, with the text of its `fmt.Errorf` in bytes. -/
inductive Classified where
  | transport (err : GoError)
  | failed (text : ByteArray)
  | retryAfter (delay : Duration) (text : ByteArray)
  | deadLetter (text : ByteArray)

def statusText (statusCode : Int) : String := "httphandler: HTTP " ++ toString statusCode ++ ": "

def httpText (resp : Response) : ByteArray := (statusText resp.statusCode).toByteArray ++ snip resp.body

def defaultClassifier (parseTime : List UInt8 → Option Time) (now : Time) (resp : Response)
    (transportErr : Option GoError) : Option Classified :=
  let retried := match parseRetryAfter parseTime now resp.retryAfter with
    | some d => Classified.retryAfter d (httpText resp)
    | none => .failed (httpText resp)
  match transportErr with
  | some err => some (.transport err)
  | none =>
    if 200 ≤ resp.statusCode ∧ resp.statusCode < 300 then none
    else if resp.statusCode = 408 ∨ resp.statusCode = 425 ∨ resp.statusCode = 429 then some retried
    else if 400 ≤ resp.statusCode ∧ resp.statusCode < 500 then some (.deadLetter (httpText resp))
    else if 500 ≤ resp.statusCode then some retried
    else some (.failed ("httphandler: unexpected HTTP " ++ toString resp.statusCode).toByteArray)

/-! ### Requests for a delay -/

/-- The header asks for `n` seconds, and `n` is an int. -/
def DeltaSeconds (v : List UInt8) (n : Int) : Prop := atoi (trimSpace v) = some n ∧ 0 ≤ n

/-- The longest request that is a whole number of seconds and a duration. -/
def maxSeconds : Int := 9223372036

theorem seconds_le_iff {n : Int} : n * Duration.second ≤ maxDuration ↔ n ≤ maxSeconds := by
  simp only [Duration.second, Duration.millisecond, maxDuration, maxSeconds]
  omega

section
variable {parseTime : List UInt8 → Option Time} {now : Time} {v : List UInt8} {n : Int} {d : Duration}

theorem parseRetryAfter_delta (delta : DeltaSeconds v n) :
    parseRetryAfter parseTime now v = some (wrap (n * Duration.second)) := by
  have filled : trimSpace v ≠ [] := by
    intro empty
    have nothing := delta.1
    rw [empty] at nothing
    cases nothing
  simp [parseRetryAfter, filled, delta.1, delta.2]

/-- A delay is a number of seconds, or it comes from a date and is not negative. -/
theorem parseRetryAfter_cases (parsed : parseRetryAfter parseTime now v = some d) :
    (∃ n, DeltaSeconds v n ∧ d = wrap (n * Duration.second)) ∨ 0 ≤ d := by
  have dated {date : Option Time}
      (from_ : date.map (fun t => if 0 < untilTime t now then untilTime t now else 0) = some d) : 0 ≤ d := by
    obtain ⟨t,_,rfl⟩ := Option.map_eq_some_iff.mp from_
    split
    · exact Int.le_of_lt ‹_›
    · exact Int.le_refl 0
  simp only [parseRetryAfter] at parsed
  split at parsed
  · cases parsed
  · split at parsed
    · rename_i secs number
      split at parsed
      · rename_i positive
        cases parsed
        exact Or.inl ⟨secs,⟨number,positive⟩,rfl⟩
      · exact Or.inr (dated parsed)
    · exact Or.inr (dated parsed)

end

/-- Requests whose product with a second is a duration, or wraps to one that is no shorter than
any of those. -/
def Delayable (n : Int) : Prop := n ≤ maxSeconds ∨ ∃ k : Int,
  k * 18446744073709551616 + maxSeconds * Duration.second ≤ n * Duration.second ∧
    n * Duration.second ≤ k * 18446744073709551616 + maxDuration

theorem wrap_seconds {n : Int} (positive : 0 ≤ n) (short : n ≤ maxSeconds) :
    wrap (n * Duration.second) = n * Duration.second := by
  simp only [maxSeconds] at short
  simp only [Duration.second, Duration.millisecond]
  apply Int.bmod_eq_of_le <;> omega

/-- A product that does not wrap is a duration. -/
theorem wrap_exact {n : Int} (exactly : wrap (n * Duration.second) = n * Duration.second) : n ≤ maxSeconds := by
  rw [← seconds_le_iff, ← exactly, wrap, maxDuration]
  have below := Int.bmod_lt (x := n * Duration.second) (m := 18446744073709551616) (by decide)
  omega

theorem wrap_long {x : Int} : maxSeconds * Duration.second ≤ wrap x ↔
    ∃ k : Int, k * 18446744073709551616 + maxSeconds * Duration.second ≤ x ∧
      x ≤ k * 18446744073709551616 + maxDuration := by
  rw [wrap, Int.bmod_def]
  simp only [maxSeconds, maxDuration, Duration.second, Duration.millisecond]
  constructor
  · intro long
    exact ⟨x / 18446744073709551616,by omega,by omega⟩
  · rintro ⟨k,low,high⟩
    omega

/-- The header is honoured: the delay is not negative, it is what was asked for unless that is
no duration, no smaller request gets a longer one, and the retry is not in the past. -/
structure Honoured (parseTime : List UInt8 → Option Time) (v : List UInt8) : Prop where
  nonneg : ∀ now d, parseRetryAfter parseTime now v = some d → 0 ≤ d
  asked : ∀ now n, DeltaSeconds v n → ∃ d, parseRetryAfter parseTime now v = some d ∧
    (d = n * Duration.second ∨ maxDuration < n * Duration.second ∧
      ∀ m, m * Duration.second ≤ maxDuration → m * Duration.second ≤ d)
  longer : ∀ now n d smaller n' d', DeltaSeconds v n → DeltaSeconds smaller n' → n' ≤ n → n' ≤ maxSeconds →
    parseRetryAfter parseTime now v = some d → parseRetryAfter parseTime now smaller = some d' → d' ≤ d
  future : ∀ now d, parseRetryAfter parseTime now v = some d →
    ∀ workerID m cfg err outcome clock nextDelay, deadAfter m cfg (retryAfter d (some err)) outcome = false →
      clock ≤ (failParams workerID m cfg (retryAfter d (some err)) outcome clock nextDelay).nextRetryAt

/-- Among the requests for at most `bound` seconds a larger one never gets a shorter delay. -/
def Increasing (parseTime : List UInt8 → Option Time) (bound : Int) : Prop :=
  ∀ now v v' n n' d d', DeltaSeconds v n → DeltaSeconds v' n' → n ≤ n' → n' ≤ bound →
    parseRetryAfter parseTime now v = some d → parseRetryAfter parseTime now v' = some d' → d ≤ d'

section
variable {parseTime : List UInt8 → Option Time} {v : List UInt8} {n : Int}

theorem Delayable.le_wrap (delayable : Delayable n) {m : Int} (positive : 0 ≤ n) (smaller : m ≤ n) (short : m ≤ maxSeconds) :
    m * Duration.second ≤ wrap (n * Duration.second) := by
  have second : (0 : Int) ≤ Duration.second := by decide
  rcases delayable with exactly | wrapped
  · rw [wrap_seconds positive exactly]
    exact Int.mul_le_mul_of_nonneg_right smaller second
  · exact (Int.mul_le_mul_of_nonneg_right short second).trans (wrap_long.mpr wrapped)

theorem future_of_nonneg {d : Duration} (nonneg : 0 ≤ d) (workerID : String) (m : InboundMessage) (cfg : HandlerConfig)
    (err : GoError) (outcome : Outcome) (clock : Time) (nextDelay : Duration)
    (alive : deadAfter m cfg (retryAfter d (some err)) outcome = false) :
    clock ≤ (failParams workerID m cfg (retryAfter d (some err)) outcome clock nextDelay).nextRetryAt := by
  have scheduled : (failParams workerID m cfg (retryAfter d (some err)) outcome clock nextDelay).nextRetryAt =
      clock + d := by
    simp only [failParams, alive, Bool.false_eq_true, if_false]
    rfl
  rw [scheduled]
  exact Int.le_add_of_nonneg_right nonneg

theorem honoured_of_delayable (delayable : ∀ n, DeltaSeconds v n → Delayable n) : Honoured parseTime v := by
  have nonneg (now : Time) (d : Duration) (parsed : parseRetryAfter parseTime now v = some d) : 0 ≤ d := by
    rcases parseRetryAfter_cases parsed with ⟨n,delta,rfl⟩ | dated
    · have long := (delayable n delta).le_wrap delta.2 delta.2 (by decide)
      rwa [Int.zero_mul] at long
    · exact dated
  refine ⟨nonneg,fun now n delta => ⟨_,parseRetryAfter_delta delta,?_⟩,?_,fun now d parsed =>
    future_of_nonneg (nonneg now d parsed)⟩
  · by_cases short : n ≤ maxSeconds
    · exact Or.inl (wrap_seconds delta.2 short)
    · refine Or.inr ⟨?_,fun m fits => (delayable n delta).le_wrap delta.2 ?_ (seconds_le_iff.mp fits)⟩
      · exact Int.not_le.mp (mt seconds_le_iff.mp short)
      · exact (seconds_le_iff.mp fits).trans (Int.le_of_lt (Int.not_le.mp short))
  · intro now n d smaller n' d' delta delta' less short parsed parsed'
    rw [parseRetryAfter_delta delta] at parsed
    rw [parseRetryAfter_delta delta'] at parsed'
    cases parsed
    cases parsed'
    rw [wrap_seconds delta'.2 short]
    exact (delayable n delta).le_wrap delta.2 less short

end

/-- The header for the longest request that fits, and for a second more. -/
def longestHeader : List UInt8 := "9223372036".toByteArray.toList

def tooLongHeader : List UInt8 := "9223372037".toByteArray.toList

theorem longest_delta : DeltaSeconds longestHeader maxSeconds := ⟨by decide +kernel,by decide⟩

theorem tooLong_delta : DeltaSeconds tooLongHeader (maxSeconds + 1) := ⟨by decide +kernel,by decide⟩

/-- A header is honoured exactly unless it asks for more seconds than a duration holds, up to the
products that wrap into the last second of the range; and a larger request never gets a shorter
delay exactly as long as none is for more than those 9223372036 seconds. -/
theorem retryAfter_honoured_iff (parseTime : List UInt8 → Option Time) :
    (∀ v, Honoured parseTime v ↔ ∀ n, DeltaSeconds v n → Delayable n) ∧
    ∀ bound, Increasing parseTime bound ↔ bound ≤ maxSeconds := by
  refine ⟨fun v => ⟨fun honoured n delta => ?_,honoured_of_delayable⟩,fun bound => ⟨fun increasing => ?_,?_⟩⟩
  · obtain ⟨d,parsed,asked⟩ := honoured.asked 0 n delta
    cases (parseRetryAfter_delta delta).symm.trans parsed
    rcases asked with exactly | ⟨_,longest⟩
    · exact Or.inl (wrap_exact exactly)
    · exact Or.inr (wrap_long.mp (longest maxSeconds (by decide)))
  · by_contra beyond
    have shorter := increasing 0 longestHeader tooLongHeader maxSeconds (maxSeconds + 1) _ _ longest_delta
      tooLong_delta (by decide) (Int.not_le.mp beyond) (parseRetryAfter_delta longest_delta)
      (parseRetryAfter_delta tooLong_delta)
    exact absurd shorter (by decide)
  · intro within now v v' n n' d d' delta delta' less bounded parsed parsed'
    have delayable : ∀ n, DeltaSeconds v' n → Delayable n := by
      intro m delta
      cases delta'.1.symm.trans delta.1
      exact Or.inl (bounded.trans within)
    exact (honoured_of_delayable delayable).longer now n' d' v n d delta' delta less
      (less.trans (bounded.trans within)) parsed' parsed

/-- A server asks for 9223372037 seconds. The retry is due 292 years ago. -/
theorem retryAfter_overflows :
    DeltaSeconds tooLongHeader 9223372037 ∧
    parseRetryAfter (fun _ => none) 0 tooLongHeader = some (-9223372036709551616) ∧
    ¬Honoured (fun _ => none) tooLongHeader := by
  have parsed : parseRetryAfter (fun _ => none) 0 tooLongHeader = some (-9223372036709551616) := by decide +kernel
  exact ⟨tooLong_delta,parsed,fun honoured => absurd (honoured.nonneg 0 _ parsed) (by decide)⟩

end Tickr.Http
