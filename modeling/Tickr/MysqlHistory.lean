import Tickr.MysqlRows

/-! The history of the MySQL adapter against the rows it is about. A call pairs a guarded
UPDATE with an INSERT that does not ask what the UPDATE has found. -/
namespace Tickr.Mysql

open KeyedTable

variable {cfg : Config}

/-- What a history row says of a transition. -/
structure Entry where
  messageID : MessageID
  fromStatus : Status
  toStatus : Status
  attempt : Int
  deriving DecidableEq, Repr

def HistoryRow.entry (h : HistoryRow) : Entry := ⟨h.messageID, h.fromStatus, h.toStatus, h.attempt⟩

def Store.named (s : Store cfg) (id : MessageID) : Option Row := id.parse.bind s.row

/-- The entries for one message tell its change of status, or that there was none. Where the
call changes the attempt too, either will do. -/
structure Told (before after : Option Row) (id : MessageID) (entries : List Entry) : Prop where
  kept : after.map Row.status = before.map Row.status → entries = []
  moved : after.map Row.status ≠ before.map Row.status → ∃ r r' attempt, before = some r ∧ after = some r' ∧
    entries = [⟨id, r.status, r'.status, attempt⟩] ∧ (attempt = r.attempt ∨ attempt = r'.attempt)

/-- The history grows by exactly the transitions between the two stores. -/
def Audited (s s' : Store cfg) : Prop :=
  ∃ added, s'.history = s.history ++ added ∧ ∀ id, Told (s.named id) (s'.named id) id
    ((added.map HistoryRow.entry).filter fun entry => entry.messageID = id)

/-! ### One guarded statement -/

section
variable {s : Store cfg} {guard : Row → Bool} {f : Assign Row.id (idemIndex cfg)}

end

/-! ### One history row -/

section
variable (s : Store cfg) {guard : Row → Bool} {f : Assign Row.id (idemIndex cfg)} {now : Time} {id : MessageID}
  {fromStatus toStatus : Status} {attempt : Int} {errStr workerID : String}

end

/-! ### The acknowledgements of a batch -/

section
variable (s : Store cfg) {f : Assign Row.id (idemIndex cfg)} {now : Time} {id : MessageID} {toStatus : Status}
  {attempt : Int} {errStr workerID : String}

theorem isDead_iff {r : Row} : isDead id r = true ↔ id = .uuid r.id ∧ r.status = .dead := by
  simp [isDead]

end

end Tickr.Mysql
