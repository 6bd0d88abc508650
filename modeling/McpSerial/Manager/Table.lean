import Mathlib.Data.List.AList
import McpSerial.Session

/-! The session table and the critical sections of the manager lock
(`serial/manager.rs`). Each is one atomic function of the table. -/

namespace McpSerial

abbrev Sessions := AList fun _ : String => Session

def hexDigit (n : Nat) : Char := Nat.digitChar (n % 16)

def hexByte (b : UInt8) : List Char := [hexDigit (b.toNat / 16), hexDigit b.toNat]

def randomSessionId (draw : Except String (Vector UInt8 16)) : Except SerialError String :=
  match draw with
  | .ok bytes => .ok (String.ofList (bytes.toList.flatMap hexByte))
  | .error e => .error (.io s!"session id entropy source failed: {e}")

namespace Sessions

/-- The loop over what the entropy source yields: the first id that is not taken,
or none while every id drawn so far was. -/
def nextSessionId (sessions : Sessions) :
    List (Except String (Vector UInt8 16)) → Option (Except SerialError String)
  | [] => none
  | draw :: draws =>
    match randomSessionId draw with
    | .error e => some (.error e)
    | .ok id => if id ∈ sessions then nextSessionId sessions draws else some (.ok id)

def values (sessions : Sessions) : List Session := sessions.entries.map Sigma.snd

/-- The first critical section of `open`, once `next_session_id` has returned. -/
def reserve (sessions : Sessions) (args : SessionArgs)
    (draws : List (Except String (Vector UInt8 16))) :
    Option (Except SerialError String × Sessions) :=
  if sessions.values.any fun s => s.portPath = args.portPath then
    some (.error (.portBusy args.portPath), sessions)
  else if maxSessions ≤ sessions.keys.length then
    some (.error (.maxSessionsReached maxSessions), sessions)
  else
    (sessions.nextSessionId draws).map fun
      | .error e => (.error e, sessions)
      | .ok id => (.ok id, sessions.insert id (Session.opening id args))

/-- The second critical section of `open`, with the result of the backend. -/
def completeOpen (sessions : Sessions) (id : String) (result : Except SerialError Handle) :
    Except SerialError String × Sessions :=
  match result with
  | .ok port =>
    match sessions.lookup id with
    | some s => (.ok id, sessions.insert id (s.transitionToReady port))
    | none => (.error (.sessionNotFound id), sessions)
  | .error e => (.error e, sessions.erase id)

/-- The first critical section of `close`: the port handle the session had. -/
def beginClose (sessions : Sessions) (id : String) :
    Except SerialError (Option Handle) × Sessions :=
  match sessions.lookup id with
  | none => (.error (.sessionNotFound id), sessions)
  | some s =>
    match s.beginClose with
    | (true, s') => (.ok s.port, sessions.insert id s')
    | (false, _) => (.error (.invalidState id s.state.name "Ready or Opening"), sessions)

/-- The critical section of `close` after its wait for the port lock failed. -/
def restoreReady (sessions : Sessions) (id : String) (port : Handle) : Sessions :=
  match sessions.lookup id with
  | some s => sessions.insert id (s.restoreReady port)
  | none => sessions

/-- The last critical section of `close`. -/
def finishClose (sessions : Sessions) (id : String) : Sessions :=
  match sessions.lookup id with
  | some s => (sessions.insert id s.finishClose).erase id
  | none => sessions.erase id

end Sessions
end McpSerial
