import Tickr.KeyedTable
import Tickr.Message

/-! The headers of an outgoing request. The HTTP and the gRPC handler merge the same sources into
it: what is configured for every request, what is configured for this message, the headers of the
message itself, and its idempotency key. Maps are ranged over in any order, and names that differ
in case only end under one name. -/
namespace Tickr

/-- The fields of both handlers' `Config` that are about headers. -/
structure TransportConfig (β : Type) where
  static : Headers
  func : Option (InboundMessage → β → Headers)
  idempotency : String

/-- The order in which one call ranges over its maps. -/
abbrev MapOrder := Nat → KeyedTable.Scan (String × String)

/-- The value under each folded name. -/
abbrev Outgoing := String → Option String

/-- `Set`, which replaces what is there. -/
def setHeader (fold : String → String) (out : Outgoing) (entry : String × String) : Outgoing :=
  fun name => if fold entry.1 = name then some entry.2 else out name

def setAll (fold : String → String) (out : Outgoing) (entries : Headers) : Outgoing :=
  entries.foldl (setHeader fold) out

/-- `applyHeaders` and `applyMetadata`, which differ in the folding and in what is set at first. -/
def applyAll (fold : String → String) (initial : Headers) (order : MapOrder) (cfg : TransportConfig β)
    (msg : InboundMessage) (body : β) : Outgoing :=
  let out := setAll fold (fun _ => none) initial
  let out := setAll fold out ((order 0).visit cfg.static)
  let out := match cfg.func with
    | some func => setAll fold out ((order 1).visit (func msg body))
    | none => out
  let out := setAll fold out ((order 2).visit msg.headers)
  if cfg.idempotency ≠ "" ∧ msg.idempotencyKey ≠ "" then
    setHeader fold out (cfg.idempotency, msg.idempotencyKey)
  else out

/-! ### Names -/

/-- The characters of a header field name. -/
def tokenChar (c : Char) : Bool := c.isAlphanum || "!#$%&'*+-.^_`|~".toList.contains c

/-- Upper case at the start and after each hyphen, lower case elsewhere. -/
def canonicalChars (upper : Bool) : List Char → List Char
  | [] => []
  | c :: rest => (if upper then c.toUpper else c.toLower) :: canonicalChars (c = '-') rest

def canonicalMIMEHeaderKey (name : String) : String :=
  if name.toList.all tokenChar then String.ofList (canonicalChars true name.toList) else name

example : canonicalMIMEHeaderKey "x-request-ID" = "X-Request-Id" ∧ canonicalMIMEHeaderKey "two words" = "two words" := by
  decide +kernel

def applyHeaders (order : MapOrder) (cfg : TransportConfig β) (msg : InboundMessage) (body : β) : Outgoing :=
  applyAll canonicalMIMEHeaderKey [("Content-Type", "application/json")] order cfg msg body

/-- `lower` is `strings.ToLower`. -/
def applyMetadata (lower : String → String) (order : MapOrder) (cfg : TransportConfig β) (msg : InboundMessage)
    (body : β) : Outgoing := applyAll lower [] order cfg msg body

/-- A handler replaces an empty idempotency name by its default. -/
def TransportConfig.orDefault (cfg : TransportConfig β) (name : String) : TransportConfig β :=
  { cfg with idempotency := if cfg.idempotency = "" then name else cfg.idempotency }

inductive Transport where
  | http
  | grpc (lower : String → String)

def Transport.fold : Transport → String → String
  | .http => canonicalMIMEHeaderKey
  | .grpc lower => lower

def Transport.initial : Transport → Headers
  | .http => [("Content-Type", "application/json")]
  | .grpc _ => []

def Transport.idempotencyName : Transport → String
  | .http => "Idempotency-Key"
  | .grpc _ => "x-idempotency-key"

/-- What `PostJSON` and `Unary` send with a message. -/
def Transport.outgoing (t : Transport) (order : MapOrder) (cfg : TransportConfig β) (msg : InboundMessage)
    (body : β) : Outgoing :=
  match t with
  | .http => applyHeaders order (cfg.orDefault "Idempotency-Key") msg body
  | .grpc lower => applyMetadata lower order (cfg.orDefault "x-idempotency-key") msg body

theorem Transport.outgoing_eq (t : Transport) (order : MapOrder) (cfg : TransportConfig β) (msg : InboundMessage)
    (body : β) : t.outgoing order cfg msg body =
      applyAll t.fold t.initial order (cfg.orDefault t.idempotencyName) msg body := by
  cases t <;> rfl

/-! ### The last entry wins -/

/-- The value of the last entry under a folded name. -/
def lastUnder (fold : String → String) (name : String) : Headers → Option String
  | [] => none
  | entry :: rest => (lastUnder fold name rest).or (if fold entry.1 = name then some entry.2 else none)

theorem setAll_apply (fold : String → String) (name : String) (entries : Headers) (out : Outgoing) :
    setAll fold out entries name = (lastUnder fold name entries).or (out name) := by
  induction entries generalizing out with
  | nil => rfl
  | cons entry rest ih =>
    have step : setAll fold out (entry :: rest) = setAll fold (setHeader fold out entry) rest := rfl
    rw [step, ih, lastUnder, Option.or_assoc]
    congr 1
    unfold setHeader
    split <;> rfl

section
variable (t : Transport) (order : MapOrder) (cfg : TransportConfig β) (msg : InboundMessage) (body : β)
  (name : String)

/-- What the configuration sets for this message under a name. -/
def Transport.configured : Option String :=
  (lastUnder t.fold (t.fold name) ((cfg.func.map fun func => (order 1).visit (func msg body)).getD [])).or
    ((lastUnder t.fold (t.fold name) ((order 0).visit cfg.static)).or (lastUnder t.fold (t.fold name) t.initial))

/-- What the message carries under a name. -/
def Transport.carried (headers : Headers) : Option String :=
  lastUnder t.fold (t.fold name) ((order 2).visit headers)

/-- What both handlers have set before they come to the headers of the message. -/
theorem Transport.configured_eq : t.configured order cfg msg body name =
    (match cfg.func with
      | some func => setAll t.fold (setAll t.fold (setAll t.fold (fun _ => none) t.initial)
          ((order 0).visit cfg.static)) ((order 1).visit (func msg body))
      | none => setAll t.fold (setAll t.fold (fun _ => none) t.initial) ((order 0).visit cfg.static)) (t.fold name) := by
  unfold Transport.configured
  cases cfg.func with
  | none => simp only [setAll_apply, Option.map_none, Option.getD_none, lastUnder, Option.none_or, Option.or_none]
  | some func => simp only [setAll_apply, Option.map_some, Option.getD_some, Option.or_none]

variable {t cfg name}

theorem Transport.outgoing_apply (other : t.fold (cfg.orDefault t.idempotencyName).idempotency ≠ t.fold name) :
    t.outgoing order cfg msg body (t.fold name) =
      (t.carried order name msg.headers).or (t.configured order cfg msg body name) := by
  -- the idempotency header is set last, but under another name
  have last (out : Outgoing) (key : String) :
      setHeader t.fold out ((cfg.orDefault t.idempotencyName).idempotency, key) (t.fold name) = out (t.fold name) :=
    if_neg other
  rw [Transport.outgoing_eq, Transport.configured_eq, Transport.carried, ← setAll_apply]
  unfold applyAll
  split
  · rw [last]
    rfl
  · rfl

end

/-- What two messages carry, and what is configured for them, comes to the same: where a message
carries nothing, the other one must not carry anything but its configured value. -/
def Concordant (carried configured carried' configured' : Option String) : Prop :=
  match carried, carried' with
  | none, none => configured = configured'
  | some value, none => configured' = some value
  | none, some value => configured = some value
  | some value, some value' => value = value'

instance : ∀ carried configured carried' configured', Decidable (Concordant carried configured carried' configured')
  | none, _, none, _ | some _, _, none, _ | none, _, some _, _ | some _, _, some _, _ =>
    inferInstanceAs (Decidable (_ = _))

/-- Two messages that differ in their headers only get the same value under a name exactly if
what they carry under it is concordant; and a request has the configured value exactly unless its
message carries another one. -/
theorem transport_headers_iff (t : Transport) (cfg : TransportConfig β) (msg : InboundMessage) (headers : Headers)
    (body : β) (order order' : MapOrder) (name : String)
    (other : t.fold (cfg.orDefault t.idempotencyName).idempotency ≠ t.fold name) :
    (t.outgoing order cfg msg body (t.fold name) = t.outgoing order' cfg { msg with headers } body (t.fold name) ↔
      Concordant (t.carried order name msg.headers) (t.configured order cfg msg body name)
        (t.carried order' name headers) (t.configured order' cfg { msg with headers } body name)) ∧
    (t.outgoing order cfg msg body (t.fold name) = t.configured order cfg msg body name ↔
      ∀ value, t.carried order name msg.headers = some value → t.configured order cfg msg body name = some value) := by
  rw [Transport.outgoing_apply order msg body other, Transport.outgoing_apply order' { msg with headers } body other]
  constructor
  · cases t.carried order name msg.headers with
    | none => cases t.carried order' name headers <;> simp [Concordant]
    | some value => cases t.carried order' name headers <;> simp [Concordant, eq_comm]
  · cases t.carried order name msg.headers with
    | none => simp
    | some value => simp [eq_comm]

/-! ### A message with a credential of its own -/

/-- ASCII letters, to which gRPC confines the names of its metadata. -/
def lowerAscii (name : String) : String := String.ofList (name.toList.map Char.toLower)

def bearer : TransportConfig Unit := ⟨[("Authorization", "Bearer abc")], none, ""⟩

def orderMail (headers : Headers) : InboundMessage := ⟨.uuid 7, "mail", [], headers, "", 1, 3, 0, 0, "", none⟩

def written : MapOrder := fun _ => KeyedTable.Scan.physical _

theorem transport_headers_iff_traced :
    Transport.http.outgoing written bearer (orderMail [("traceparent", "00-a")]) () "Authorization" =
      Transport.http.outgoing written bearer (orderMail []) () "Authorization" :=
  (transport_headers_iff .http bearer (orderMail [("traceparent", "00-a")]) [] () written written "Authorization"
    (by decide +kernel)).1.mpr (by decide +kernel)

/-- Both handlers send what the message says in place of the configured credential. -/
theorem transport_headers_replaced :
    Transport.http.outgoing written bearer (orderMail []) () "Authorization" = some "Bearer abc" ∧
    Transport.http.outgoing written bearer (orderMail [("authorization", "Bearer xyz")]) () "Authorization" =
      some "Bearer xyz" ∧
    (Transport.grpc lowerAscii).outgoing written bearer (orderMail []) () "authorization" = some "Bearer abc" ∧
    (Transport.grpc lowerAscii).outgoing written bearer (orderMail [("AUTHORIZATION", "Bearer xyz")]) ()
      "authorization" = some "Bearer xyz" := by
  decide +kernel

end Tickr
