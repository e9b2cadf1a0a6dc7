import NazoAuth.Lib.Run
import NazoAuth.Lib.Register
import NazoAuth.Lib.Cjson

/-!
# Authorization codes — the record in the state store

A code is stored once, after the decision that grants it, as a record with a status and an opaque
payload. The scripts own the transitions: `BEGIN` takes a pending record into consumption and hands
out the payload, `MARK` ends a consumption. The payload is a string inside the record, so no script
ever decodes it.

A client is a token request. It begins; if it is handed the payload it holds the code and may later
mark the outcome or, after the commit, finalize the code, which deletes the record. Replies may be
lost and commands delivered again. `DISCARD` removes the consent and pushed request that the
decision was made on.
-/

namespace NazoAuth.AuthorizationCode

open Lib Lib.Json

/-! ## Records -/

inductive CodeStatus where
  | pending
  | consuming
  | consumed
  | failed
  deriving DecidableEq

def CodeStatus.text : CodeStatus → String
  | .pending => "pending"
  | .consuming => "consuming"
  | .consumed => "consumed"
  | .failed => "failed"

inductive AuthorizationCodeState (P : Type) where
  | pending (payload : P)
  | consuming (payload : P) (consumingAt : String)
  | consumed
  | failed (failedAt : String) (error : String)

/-- The codecs that the store is used with: the payload as a string and back, the text of a stored
value, and the typed reading of a record. -/
structure CodeCodec (P : Type) where
  encodePayload : P → String
  decodePayload : String → Option P
  decode_encode : ∀ payload, decodePayload (encodePayload payload) = some payload
  rawText : Text → String
  readState : String → Option (AuthorizationCodeState P)

/-- `AuthorizationCodeWire`: the status is the tag, the payload is opaque. -/
def wire {P : Type} (codec : CodeCodec P) : AuthorizationCodeState P → Json
  | .pending payload => .obj [("status", .str "pending"), ("payload", .str (codec.encodePayload payload))]
  | .consuming payload consumingAt =>
    .obj [("status", .str "consuming"), ("payload", .str (codec.encodePayload payload)),
      ("consuming_at", .str consumingAt)]
  | .consumed => .obj [("status", .str "consumed")]
  | .failed failedAt error => .obj [("status", .str "failed"), ("failed_at", .str failedAt), ("error", .str error)]

/-- `state.status` where it is a string. -/
def luaStatus (doc : Json) : Option String := (doc.get? "status").bind str?

def statusOf (text : Text) : Option CodeStatus :=
  match luaStatus text.document with
  | some "pending" => some .pending
  | some "consuming" => some .consuming
  | some "consumed" => some .consumed
  | some "failed" => some .failed
  | _ => none

/-! ## Scripts -/

/-- The record of a consumption. -/
def consumingDocument (consumingAt : String) (doc : Json) : Json :=
  reencode (set "consuming_at" (.str consumingAt) (set "status" (.str "consuming") doc))

/-- `BEGIN_AUTHORIZATION_CODE_CONSUMPTION_SCRIPT`. -/
def beginScript (rawText : Text → String) (now : Int) (code : Option (Entry Text))
    (consumingAt : String) (layout : Nat) : Option (Entry Text) × String :=
  match visible now code with
  | none => (code, "missing")
  | some current => match luaStatus current.value.document with
    | none => (code, "malformed")
    | some status =>
      if status = "pending" then
        match (current.value.document.get? "payload").bind str? with
        | none => (code, "malformed")
        | some payload =>
          (some ⟨⟨consumingDocument consumingAt current.value.document, layout⟩, current.deadline⟩,
            "consuming|" ++ payload)
      else if status = "consuming" then (code, "busy")
      else if status = "consumed" then (code, "consumed|" ++ rawText current.value)
      else if status = "failed" then (code, "failed")
      else (code, "malformed")

/-- `MARK_AUTHORIZATION_CODE_SCRIPT`: any consuming record is replaced, with a new time to live. -/
def markScript (now : Int) (code : Option (Entry Text)) (replacement : Text) (ttlSeconds : Nat) :
    Option (Entry Text) × String :=
  match visible now code with
  | none => (code, "missing")
  | some current => match luaStatus current.value.document with
    | none => (code, "malformed")
    | some status =>
      if status ≠ "consuming" then (code, status)
      -- an expiry of zero seconds is refused by the store
      else if ttlSeconds = 0 then (code, "invalid expire time")
      else (some ⟨replacement, now + ttlSeconds * 1000⟩, "ok")

/-- The two keys of the decision material: consent and pushed request. -/
structure DecisionMaterial where
  consent : Option (Entry String)
  par : Option (Entry String)

inductive DecisionMaterialDiscardOutcome where
  | discarded
  | consentMissingOrChanged
  | parMissingOrChanged

/-- `DISCARD_DECISION_MATERIAL_SCRIPT`: the consent first; a pushed request only after it. -/
def discardScript (now : Int) (material : DecisionMaterial) (consent : String)
    (par : Option String) : DecisionMaterial × DecisionMaterialDiscardOutcome :=
  if (visible now material.consent).map Entry.value ≠ some consent then (material, .consentMissingOrChanged)
  else
    let material := { material with consent := none }
    match par with
    | none => (material, .discarded)
    | some par =>
      if (visible now material.par).map Entry.value ≠ some par then (material, .parMissingOrChanged)
      else ({ material with par := none }, .discarded)

/-! ## Replies -/

inductive AuthorizationCodeBeginResult (P : Type) where
  | consuming (payload : P)
  | busy
  | consumed (state : AuthorizationCodeState P)
  | failed
  | missing
  | malformed

inductive StoreError where
  | corruptData
  | unexpected

/-- `str::strip_prefix`. -/
def stripPrefix (pre s : String) : Option String :=
  if pre.toList.isPrefixOf s.toList then some (String.ofList (s.toList.drop pre.toList.length)) else none

/-- `parse_authorization_code_begin_reply`. -/
def parseBeginReply {P : Type} (codec : CodeCodec P) (reply : String) :
    Except StoreError (AuthorizationCodeBeginResult P) :=
  match stripPrefix "consuming|" reply with
  | some raw => match codec.decodePayload raw with
    | some payload => .ok (.consuming payload)
    | none => .error .corruptData
  | none => match stripPrefix "consumed|" reply with
    | some raw => match codec.readState raw with
      | some state => .ok (.consumed state)
      | none => .error .corruptData
    | none =>
      if reply = "busy" then .ok .busy
      else if reply = "failed" then .ok .failed
      else if reply = "missing" then .ok .missing
      else if reply = "malformed" then .ok .malformed
      else .error .unexpected

theorem stripPrefix_append (pre s : String) : stripPrefix pre (pre ++ s) = some s := by
  simp [stripPrefix]

/-! ## The machine -/

/-- The result of a begin, or the failure to read its reply. -/
abbrev BeginReply (P : Type) := Except StoreError (AuthorizationCodeBeginResult P)

/-- The payload that a begin hands out. -/
def BeginReply.consumingPayload {P : Type} : BeginReply P → Option P
  | .ok (.consuming payload) => some payload
  | _ => none

/-- The outcomes that a holder marks. -/
inductive Terminal where
  | consumed
  | failed (failedAt error : String)

def Terminal.state {P : Type} : Terminal → AuthorizationCodeState P
  | .consumed => .consumed
  | .failed failedAt error => .failed failedAt error

structure World where
  code : Option (Entry Text)
  material : DecisionMaterial
  /-- The clients that were handed the payload. -/
  holding : Nat → Bool

inductive Op where
  | begin (client : Nat) (consumingAt : String) (layout : Nat) (now : Int) (received : Bool)
  | mark (client : Nat) (terminal : Terminal) (ttlSeconds : Nat) (now : Int)
  | finalize (client : Nat)
  | discard (consent : String) (par : Option String) (now : Int)
  | expire (now : Int)

inductive Outcome (P : Type) where
  | quiet
  /-- A begin, its result, and the record it wrote. -/
  | began (client : Nat) (result : BeginReply P) (record : Option (Text × Text))
  /-- A mark that was applied. -/
  | marked (client : Nat) (before after : Text)
  | markRefused (client : Nat) (reply : String)
  | discarded (outcome : DecisionMaterialDiscardOutcome)

def exec {P : Type} (codec : CodeCodec P) (w : World) : Op → World × Outcome P
  | .begin client consumingAt layout now received =>
    let (code, reply) := beginScript codec.rawText now w.code consumingAt layout
    let result := parseBeginReply codec reply
    let handed := (BeginReply.consumingPayload result).isSome && received
    (⟨code, w.material, fun c => w.holding c || (decide (c = client) && handed)⟩,
      .began client result (overwritten now w.code code))
  | .mark client terminal ttlSeconds now =>
    if w.holding client then
      let (code, reply) := markScript now w.code ⟨wire codec terminal.state, 0⟩ ttlSeconds
      match overwritten now w.code code with
      | some (before, after) => ({ w with code := code }, .marked client before after)
      | none => ({ w with code := code }, .markRefused client reply)
    else (w, .quiet)
  | .finalize client => if w.holding client then ({ w with code := none }, .quiet) else (w, .quiet)
  | .discard consent par now =>
    let (material, outcome) := discardScript now w.material consent par
    ({ w with material := material }, .discarded outcome)
  | .expire now =>
    ({ w with
      code := visible now w.code
      material := ⟨visible now w.material.consent, visible now w.material.par⟩ }, .quiet)

abbrev Log (P : Type) := List (Op × Outcome P)

/-- The record that is stored after the decision. -/
def pendingRecord {P : Type} (codec : CodeCodec P) (payload : P) : Text := ⟨wire codec (.pending payload), 0⟩

/-- The world in which the code was just stored. -/
def stored {P : Type} (codec : CodeCodec P) (payload : P) (deadline : Int) (material : DecisionMaterial) : World :=
  ⟨some ⟨pendingRecord codec payload, deadline⟩, material, fun _ => false⟩

end NazoAuth.AuthorizationCode
