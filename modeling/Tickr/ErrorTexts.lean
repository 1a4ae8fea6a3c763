import Tickr.HttpHandler
import Tickr.Utf8Cut

/-! The texts of the HTTP handler's errors. They quote the body of the response up to a fixed
number of bytes, and end in a column that takes nothing but valid UTF-8. -/
namespace Tickr.Http

/-- `Error()` of what the classifier returns. -/
def Classified.error : Classified → ByteArray
  | .transport err => ("httphandler: transport: " ++ err.error).toByteArray
  | .failed text => text
  | .retryAfter delay text => ("tickr: retry after " ++ delay.string ++ ": ").toByteArray ++ text
  | .deadLetter text => "tickr: dead-letter: ".toByteArray ++ text

/-- The error value whose texts have these bytes. -/
inductive Classified.Is : Classified → GoError → Prop where
  | transport : Is (.transport err) (.wrap "httphandler: transport: " err "")
  | failed : Is (.failed message.toByteArray) (.text message)
  | retryAfter : Is (.retryAfter delay message.toByteArray) (Tickr.retryAfter delay (some (.text message)))
  | deadLetter : Is (.deadLetter message.toByteArray) (Tickr.deadLetter (some (.text message)))

section
variable (delay : Duration) (message : String)

theorem retryAfter_error : (Tickr.retryAfter delay (some (.text message))).error =
    "tickr: retry after " ++ delay.string ++ ": " ++ message := rfl

theorem deadLetter_error : (Tickr.deadLetter (some (.text message))).error = "tickr: dead-letter: " ++ message := rfl

theorem transport_error (cause : GoError) : (GoError.wrap "httphandler: transport: " cause "").error =
    "httphandler: transport: " ++ cause.error ++ "" := rfl

end

theorem Classified.Is.error {c : Classified} {err : GoError} (is : c.Is err) : err.error.toByteArray = c.error := by
  cases is with
  | transport =>
    rw [transport_error, String.append_empty]
    exact rfl
  | failed => exact rfl
  | retryAfter =>
    rw [retryAfter_error]
    exact String.toByteArray_append
  | deadLetter =>
    rw [deadLetter_error]
    exact String.toByteArray_append

/-- The error is a value with a valid text, and that text is what a failed attempt passes on. -/
structure Storable (c : Classified) : Prop where
  valid : c.error.IsValidUTF8
  passed : ∃ err, c.Is err ∧ ∀ workerID m cfg outcome clock nextDelay,
    (failParams workerID m cfg err outcome clock nextDelay).err.toByteArray = c.error

theorem storable_of_is {c : Classified} {err : GoError} (is : c.Is err) : Storable c where
  valid := is.error ▸ err.error.isValidUTF8
  passed := ⟨err,is,fun _ _ _ _ _ _ => is.error⟩

/-- The body is quoted whole, or a character begins where it is cut off. -/
def CutBetween (body : ByteArray) : Prop := ∀ inside : 200 < body.size, body[200].IsUTF8FirstByte

theorem snip_valid_iff {body : ByteArray} (valid : body.IsValidUTF8) :
    (snip body).IsValidUTF8 ↔ CutBetween body := by
  unfold snip CutBetween
  split
  · exact iff_of_true valid fun inside => by omega
  · have inside : 200 < body.size := by omega
    rw [Utf8Cut.append_right_iff "…".isValidUTF8, Utf8Cut.extract_iff valid inside]
    exact ⟨fun first _ => first,fun first => first inside⟩

theorem httpText_valid_iff {resp : Response} (valid : resp.body.IsValidUTF8) :
    (httpText resp).IsValidUTF8 ↔ CutBetween resp.body := by
  rw [httpText, Utf8Cut.append_left_iff (statusText resp.statusCode).isValidUTF8, snip_valid_iff valid]

section
variable (parseTime : List UInt8 → Option Time) (now : Time) (resp : Response)

/-- Below status 400 an error does not quote the body. -/
theorem defaultClassifier_below (low : resp.statusCode < 400) {c : Classified}
    (produced : defaultClassifier parseTime now resp none = some c) :
    ∃ message : String, c = .failed message.toByteArray := by
  simp only [defaultClassifier] at produced
  split at produced
  · cases produced
  · rw [if_neg (by omega), if_neg (by omega), if_neg (by omega)] at produced
    cases produced
    exact ⟨_,rfl⟩

/-- From 400 on there always is one, and it does. -/
theorem defaultClassifier_from (high : 400 ≤ resp.statusCode) :
    ∃ c, defaultClassifier parseTime now resp none = some c ∧ (c = .failed (httpText resp) ∨
      (∃ delay, c = .retryAfter delay (httpText resp)) ∨ c = .deadLetter (httpText resp)) := by
  simp only [defaultClassifier]
  rw [if_neg (by omega)]
  cases parseRetryAfter parseTime now resp.retryAfter with
  | none =>
    split
    · exact ⟨_,rfl,Or.inl rfl⟩
    · split
      · exact ⟨_,rfl,Or.inr (Or.inr rfl)⟩
      · rw [if_pos (by omega)]
        exact ⟨_,rfl,Or.inl rfl⟩
  | some delay =>
    split
    · exact ⟨_,rfl,Or.inr (Or.inl ⟨delay,rfl⟩)⟩
    · split
      · exact ⟨_,rfl,Or.inr (Or.inr rfl)⟩
      · rw [if_pos (by omega)]
        exact ⟨_,rfl,Or.inr (Or.inl ⟨delay,rfl⟩)⟩

end

section
variable {c : Classified} {text : ByteArray}
  (quotes : c = .failed text ∨ (∃ delay, c = .retryAfter delay text) ∨ c = .deadLetter text)
include quotes

theorem quoted_valid (valid : c.error.IsValidUTF8) : text.IsValidUTF8 := by
  rcases quotes with rfl | ⟨delay,rfl⟩ | rfl
  · exact valid
  · exact (Utf8Cut.append_left_iff (String.isValidUTF8 _)).mp valid
  · exact (Utf8Cut.append_left_iff (String.isValidUTF8 _)).mp valid

/-- An error that quotes a body can be stored exactly if the quotation is valid. -/
theorem storable_quoted_iff : Storable c ↔ text.IsValidUTF8 := by
  refine ⟨fun storable => quoted_valid quotes storable.valid,fun valid => ?_⟩
  obtain ⟨message,rfl⟩ : ∃ message : String, text = message.toByteArray := ⟨String.ofByteArray text valid,rfl⟩
  rcases quotes with rfl | ⟨delay,rfl⟩ | rfl
  · exact storable_of_is .failed
  · exact storable_of_is .retryAfter
  · exact storable_of_is .deadLetter

end

/-- The text of the error that a response is turned into can be stored exactly if it does not
quote the body, or the 200 bytes that it quotes end with a character. -/
theorem errors_storable_iff (parseTime : List UInt8 → Option Time) (now : Time) (resp : Response)
    (transportErr : Option GoError) (valid : resp.body.IsValidUTF8) :
    ((∀ c, defaultClassifier parseTime now resp transportErr = some c → Storable c) ↔
      transportErr ≠ none ∨ resp.statusCode < 400 ∨ CutBetween resp.body) ∧
    ((snip resp.body).IsValidUTF8 ↔ CutBetween resp.body) := by
  refine ⟨?_,snip_valid_iff valid⟩
  cases transportErr with
  | some err =>
    refine iff_of_true (fun c produced => ?_) (Or.inl (by simp))
    cases produced
    exact storable_of_is .transport
  | none =>
    rw [ne_self_iff_false, false_or]
    by_cases low : resp.statusCode < 400
    · refine iff_of_true (fun c produced => ?_) (Or.inl low)
      obtain ⟨message,rfl⟩ := defaultClassifier_below parseTime now resp low produced
      exact storable_of_is .failed
    · obtain ⟨c,produced,quotes⟩ := defaultClassifier_from parseTime now resp (Int.not_lt.mp low)
      rw [or_iff_right low, ← httpText_valid_iff valid, ← storable_quoted_iff quotes, produced]
      exact ⟨fun all => all c rfl,fun storable _ same => Option.some.inj same ▸ storable⟩

/-- 199 letters and one of two bytes. -/
def longBody : ByteArray := ((List.replicate 199 'a' ++ ['é']).flatMap String.utf8EncodeChar).toByteArray

theorem longBody_valid : longBody.IsValidUTF8 :=
  @ByteArray.isValidUTF8_utf8Encode (List.replicate 199 'a' ++ ['é'])

theorem longBody_cut : ¬CutBetween longBody := by
  intro between
  exact absurd (between (by decide +kernel)) (by decide +kernel)

/-- A response of the given status without a Retry-After header. -/
def answered (statusCode : Int) : Response := ⟨statusCode, [], longBody⟩

theorem answered_valid (statusCode : Int) : (answered statusCode).body.IsValidUTF8 := by
  simpa only [answered] using longBody_valid

theorem errors_storable_iff_redirect :
    ¬CutBetween longBody ∧ ∀ c, defaultClassifier (fun _ => none) 0 (answered 302) none = some c → Storable c :=
  ⟨longBody_cut,(errors_storable_iff (fun _ => none) 0 (answered 302) none (answered_valid 302)).1.mpr
    (Or.inr (Or.inl (show (302 : Int) < 400 by decide)))⟩

/-- A server error with this body cannot be recorded: the cut leaves the first byte of the
last letter. -/
theorem errors_unstorable :
    longBody.IsValidUTF8 ∧ ¬(snip longBody).IsValidUTF8 ∧
    ∃ c, defaultClassifier (fun _ => none) 0 (answered 500) none = some c ∧ ¬c.error.IsValidUTF8 := by
  have broken : ¬(snip longBody).IsValidUTF8 := mt (snip_valid_iff longBody_valid).mp longBody_cut
  obtain ⟨c,produced,quotes⟩ := defaultClassifier_from (fun _ => none) 0 (answered 500)
    (show (400 : Int) ≤ 500 by decide)
  refine ⟨longBody_valid,broken,c,produced,fun valid => longBody_cut ?_⟩
  have cut := (httpText_valid_iff (answered_valid 500)).mp (quoted_valid quotes valid)
  simpa only [answered] using cut

end Tickr.Http
