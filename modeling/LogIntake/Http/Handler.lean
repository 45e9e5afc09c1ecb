import LogIntake.Http.Label
import LogIntake.Http.Request
import LogIntake.Json.Reader

/-!
Handling requests. Each check has its answer and the first one that fails decides; a request that
passes them all brings one entry.
-/
namespace LogIntake.Http

open Text (Bytes)

structure Handler where
  auth : Auth := .everyone
  maxBodySize : Nat := 10 * 1024 * 1024

inductive BodyFault where
  | tooLarge
  | broken
deriving DecidableEq, Repr

/-- A body that is being read: the bytes that are held, and the chunks that are still to come. -/
structure Reading where
  held : Bytes := []
  left : List Bytes
  breaksOff : Bool := false

namespace Reading

inductive Step where
  | next (r : Reading)
  | done (result : Except BodyFault Bytes)

/-- Takes the next chunk, unless that would be more bytes than the limit. -/
def step (limit : Nat) (r : Reading) : Step :=
  match r.left with
  | [] => .done (if r.breaksOff then .error .broken else .ok r.held)
  | chunk :: rest =>
    if limit < r.held.length + chunk.length then .done (.error .tooLarge)
    else .next { r with held := r.held ++ chunk, left := rest }

/-- All that a step can do: it comes to the end, finds no room for the next chunk, or takes it. -/
theorem step_cases (limit : Nat) (r : Reading) :
    (r.left = [] ∧ r.step limit = .done (if r.breaksOff then .error .broken else .ok r.held)) ∨
    ∃ chunk rest, r.left = chunk :: rest ∧
      ((limit < r.held.length + chunk.length ∧ r.step limit = .done (.error .tooLarge)) ∨
        (r.held.length + chunk.length ≤ limit ∧
          r.step limit = .next { r with held := r.held ++ chunk, left := rest })) := by
  rw [step]
  cases r.left with
  | nil => exact .inl ⟨rfl, rfl⟩
  | cons chunk rest =>
    refine .inr ⟨chunk, rest, rfl, ?_⟩
    by_cases full : limit < r.held.length + chunk.length
    · exact .inl ⟨full, if_pos full⟩
    · exact .inr ⟨Nat.le_of_not_lt full, if_neg full⟩

theorem exists_of_next {limit : Nat} {r r' : Reading} (next : r.step limit = .next r') :
    ∃ chunk rest, r.left = chunk :: rest ∧ r.held.length + chunk.length ≤ limit ∧
      r' = { r with held := r.held ++ chunk, left := rest } := by
  obtain ⟨-, done⟩ | ⟨chunk, rest, left, ⟨-, done⟩ | ⟨room, taken⟩⟩ := step_cases limit r
  · cases done.symm.trans next
  · cases done.symm.trans next
  · exact ⟨chunk, rest, left, room, (Step.next.inj (taken.symm.trans next)).symm⟩

theorem length_left_lt {limit : Nat} {r r' : Reading} (next : r.step limit = .next r') :
    r'.left.length < r.left.length := by
  obtain ⟨chunk, rest, left, -, rfl⟩ := exists_of_next next
  simp [left]

def run (limit : Nat) (r : Reading) : Except BodyFault Bytes :=
  match _h : r.step limit with
  | .next r' => r'.run limit
  | .done result => result
termination_by r.left.length
decreasing_by exact length_left_lt _h

theorem run_of_next {limit : Nat} {r r' : Reading} (next : r.step limit = .next r') :
    r.run limit = r'.run limit := by
  rw [run, next]

end Reading

def Body.reading (b : Body) : Reading := { left := b.chunks, breaksOff := b.breaksOff }

/-- Reads a body to its end, never holding more than `limit` bytes. -/
def Body.read (limit : Nat) (b : Body) : Except BodyFault Bytes := b.reading.run limit

/-- What becomes of a request: it is answered, or it brings an entry. -/
inductive Verdict where
  | respond (response : Response)
  | accept (entry : Entry)

def Response.ok : Response := ⟨200, ""⟩
def Response.created : Response := ⟨201, ""⟩
def Response.forbidden : Response := ⟨403, "forbidden"⟩
def Response.notFound : Response := ⟨404, "not found"⟩
def Response.tooLarge : Response := ⟨413, "request body too large"⟩
def Response.badRequest (text : String) : Response := ⟨400, text⟩
def Response.closed : Response := ⟨503, "the pipeline is closed"⟩

namespace Request

def declaredLength? (r : Request) : Option Nat :=
  (Headers.firstText? "content-length" r.headers).bind (Text.Numeral.unsigned? (1 <<< 64))

/-- What the labels are made from. Without a readable header, the host is that of the target. -/
def info (r : Request) : RequestInfo where
  remoteAddress := r.remoteAddress
  host := (((Headers.firstText? "host" r.headers).map String.ofList).or r.target.authority).getD ""
  protocol := r.protocol

end Request

namespace Handler

def payload (body : Bytes) : Except String (List (String × Json.Value)) :=
  match Json.Value.read body with
  | .ok (.object members) => .ok members
  | .ok other => .error ("expected a JSON object, got " ++ other.kind)
  | .error e => .error ("failed to decode the body as JSON: " ++ e.message)

/-- The verdict on a request to the root path. -/
def ingest (h : Handler) (r : Request) : Verdict :=
  if r.method = "GET" && r.body.isEmpty then .respond .ok
  else if !h.auth.admits r.headers then .respond .forbidden
  else if r.method ≠ "POST" then .respond .notFound
  else if r.declaredLength?.any fun n => h.maxBodySize < n then .respond .tooLarge
  else
    match r.body.read h.maxBodySize with
    | .error .tooLarge => .respond .tooLarge
    | .error .broken => .respond (.badRequest "failed to read the request body")
    | .ok body =>
      match payload body with
      | .error text => .respond (.badRequest text)
      | .ok members =>
        match parse (some members) (some r.info) with
        | .ok e => .accept e
        | .error e => .respond (.badRequest e.message)

def judge (h : Handler) (r : Request) : Verdict :=
  if r.target.path = "/health" then .respond .ok
  else if r.target.path = "/" then h.ingest r
  else .respond .notFound

/-- The answer to a request, and the entry that it sends while the pipeline is open. -/
def answer (h : Handler) (pipelineOpen : Bool) (r : Request) : Response × Option Entry :=
  match h.judge r with
  | .respond response => (response, none)
  | .accept e => if pipelineOpen then (.created, some e) else (.closed, none)

end Handler

end LogIntake.Http
