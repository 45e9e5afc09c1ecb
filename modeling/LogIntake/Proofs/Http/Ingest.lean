import LogIntake.Http.Handler
import LogIntake.Proofs.Pipeline.Life
import Mathlib

/-!
What becomes of requests. The checks are made in a fixed order, the first one that fails gives the
answer, and only a request that passes all of them brings an entry. So who may not send learns nothing
from the answer, and over a pipeline that is open the entries that come in are those of the requests that
were answered with `created`, in their order.
-/
namespace LogIntake.Http

open Text (Bytes)

/-! ### Bodies -/

def Body.content (b : Body) : Bytes := b.chunks.flatten

/-- A request that came as a whole: its body does not break off and is as long as the headers say. -/
structure Request.WellFormed (r : Request) : Prop where
  complete : r.body.breaksOff = false
  announced : ∀ n, r.declaredLength? = some n → n = r.body.content.length

theorem Reading.run_eq {limit : Nat} {r : Reading} (fits : r.held.length ≤ limit) :
    r.run limit =
      if limit < (r.held ++ r.left.flatten).length then .error .tooLarge
      else if r.breaksOff then .error .broken
      else .ok (r.held ++ r.left.flatten) := by
  fun_induction Reading.run limit r with
  | case1 r r' next ih =>
    obtain ⟨chunk, rest, left, room, rfl⟩ := exists_of_next next
    rw [ih (by rw [List.length_append]; exact room), left, List.flatten_cons, List.append_assoc]
  | case2 r result done =>
    obtain ⟨left, ended⟩ | ⟨chunk, rest, left, ⟨full, stopped⟩ | ⟨-, taken⟩⟩ := step_cases limit r
    · obtain rfl := Step.done.inj (ended.symm.trans done)
      simp [left, Nat.not_lt_of_le fits]
    · obtain rfl := Step.done.inj (stopped.symm.trans done)
      have whole : limit < (r.held ++ r.left.flatten).length := by
        simp only [left, List.flatten_cons, List.length_append]
        omega
      rw [if_pos whole]
    · cases taken.symm.trans done

theorem Body.read_eq (limit : Nat) (b : Body) :
    b.read limit =
      if limit < b.content.length then .error .tooLarge
      else if b.breaksOff then .error .broken else .ok b.content :=
  Reading.run_eq (Nat.zero_le limit)

namespace Handler

theorem payload_eq_ok_iff {body : Bytes} {members : List (String × Json.Value)} :
    payload body = .ok members ↔ Json.Value.read body = .ok (.object members) := by
  unfold payload
  split <;> simp_all

end Handler

/-! ### Checks -/

inductive Check where
  | path
  | probe
  | policy
  | method
  | size
  | payload
deriving DecidableEq

namespace Check

def order : List Check := [path, probe, policy, method, size, payload]

/-- A request fails a check, and this is the answer. -/
inductive Fails (h : Handler) (r : Request) : Check → Response → Prop
  | health (asked : r.target.path = "/health") : Fails h r path .ok
  | elsewhere (other : r.target.path ≠ "/health") (notRoot : r.target.path ≠ "/") :
      Fails h r path .notFound
  | probe (get : r.method = "GET") (bare : r.body.isEmpty = true) : Fails h r probe .ok
  | stranger (unknown : h.auth.admits r.headers = false) : Fails h r policy .forbidden
  | method (other : r.method ≠ "POST") : Fails h r method .notFound
  | announced {n : Nat} (declared : r.declaredLength? = some n) (large : h.maxBodySize < n) :
      Fails h r size .tooLarge
  | large (large : h.maxBodySize < r.body.content.length) : Fails h r size .tooLarge
  | broken (breaksOff : r.body.breaksOff = true) :
      Fails h r payload (.badRequest "failed to read the request body")
  | notObject {text : String} (complete : r.body.breaksOff = false)
      (undecoded : Handler.payload r.body.content = .error text) :
      Fails h r payload (.badRequest text)

def Passes (h : Handler) (r : Request) (c : Check) : Prop := ∀ response, ¬ c.Fails h r response

variable {h : Handler} {r : Request}

theorem passes_path_iff : path.Passes h r ↔ r.target.path = "/" := by
  constructor
  · intro passes
    by_cases asked : r.target.path = "/health"
    · exact absurd (.health asked) (passes _)
    · by_cases root : r.target.path = "/"
      · exact root
      · exact absurd (.elsewhere asked root) (passes _)
  · intro root response fails
    cases fails with
    | health asked =>
      rw [root] at asked
      exact absurd asked (by decide)
    | elsewhere other notRoot => exact notRoot root

theorem passes_probe_iff : probe.Passes h r ↔ ¬ (r.method = "GET" ∧ r.body.isEmpty = true) := by
  constructor
  · rintro passes ⟨get, bare⟩
    exact passes _ (.probe get bare)
  · intro other response fails
    cases fails with
    | probe get bare => exact other ⟨get, bare⟩

theorem passes_policy_iff : policy.Passes h r ↔ h.auth.admits r.headers = true := by
  constructor
  · intro passes
    by_contra unknown
    exact passes _ (.stranger (by simpa using unknown))
  · intro known response fails
    cases fails with
    | stranger unknown => simp [known] at unknown

theorem passes_method_iff : method.Passes h r ↔ r.method = "POST" := by
  constructor
  · intro passes
    by_contra other
    exact passes _ (.method other)
  · intro post response fails
    cases fails with
    | method other => exact other post

theorem passes_size_iff : size.Passes h r ↔
    (∀ n, r.declaredLength? = some n → n ≤ h.maxBodySize) ∧
      r.body.content.length ≤ h.maxBodySize := by
  constructor
  · intro passes
    refine ⟨fun n declared => ?_, ?_⟩
    · by_contra large
      exact passes _ (.announced declared (Nat.lt_of_not_le large))
    · by_contra large
      exact passes _ (.large (Nat.lt_of_not_le large))
  · rintro ⟨announced, small⟩ response fails
    cases fails with
    | announced declared large => exact Nat.not_lt_of_le (announced _ declared) large
    | large large => exact Nat.not_lt_of_le small large

theorem passes_payload_iff : payload.Passes h r ↔ r.body.breaksOff = false ∧
    ∃ members, Json.Value.read r.body.content = .ok (.object members) := by
  constructor
  · intro passes
    have complete : r.body.breaksOff = false := by
      by_contra breaksOff
      exact passes _ (.broken (by simpa using breaksOff))
    cases decoded : Handler.payload r.body.content with
    | error text => exact absurd (.notObject complete decoded) (passes _)
    | ok members => exact ⟨complete, members, Handler.payload_eq_ok_iff.1 decoded⟩
  · rintro ⟨complete, members, decoded⟩ response fails
    cases fails with
    | broken breaksOff => simp [complete] at breaksOff
    | notObject _ undecoded => cases undecoded.symm.trans (Handler.payload_eq_ok_iff.2 decoded)

structure Decides (h : Handler) (r : Request) (c : Check) (response : Response) : Prop where
  earlier : ∀ d ∈ order.takeWhile (· ≠ c), d.Passes h r
  fails : c.Fails h r response

theorem all_or_first {p : Check → Prop} (checks : List Check) :
    (∀ c ∈ checks, p c) ∨ ∃ c, (∀ d ∈ checks.takeWhile (· ≠ c), p d) ∧ ¬ p c := by
  induction checks with
  | nil => exact .inl (by simp)
  | cons first rest ih =>
    by_cases holds : p first
    · obtain all | ⟨c, before, fails⟩ := ih
      · exact .inl (List.forall_mem_cons.2 ⟨holds, all⟩)
      · have differs : first ≠ c := by
          rintro rfl
          exact fails holds
        refine .inr ⟨c, ?_, fails⟩
        rw [List.takeWhile_cons_of_pos (by simpa using differs)]
        exact List.forall_mem_cons.2 ⟨holds, before⟩
    · exact .inr ⟨first, by simp, holds⟩

theorem all_pass_or_decides (h : Handler) (r : Request) :
    (∀ c ∈ order, c.Passes h r) ∨ ∃ c response, Decides h r c response := by
  obtain all | ⟨c, earlier, fails⟩ := all_or_first (p := Passes h r) order
  · exact .inl all
  · obtain ⟨response, fails⟩ := not_forall_not.1 fails
    exact .inr ⟨c, response, earlier, fails⟩

end Check

/-! ### The verdict -/

namespace Handler

variable {h : Handler} {r : Request}

theorem judge_of_root (root : r.target.path = "/") : h.judge r = h.ingest r := by
  have other : ¬ "/" = "/health" := by decide
  simp only [judge, root, other, if_false, if_true]

/-- A request to the root path, let in, that is to bring an entry. -/
structure Admitted (h : Handler) (r : Request) : Prop where
  root : r.target.path = "/"
  known : h.auth.admits r.headers = true
  post : r.method = "POST"

theorem admitted_of_passes {checks : List Check} (passes : ∀ c ∈ checks, c.Passes h r)
    (gates : ∀ c ∈ [Check.path, .policy, .method], c ∈ checks) : h.Admitted r where
  root := Check.passes_path_iff.1 (passes .path (gates .path (by decide)))
  known := Check.passes_policy_iff.1 (passes .policy (gates .policy (by decide)))
  post := Check.passes_method_iff.1 (passes .method (gates .method (by decide)))

theorem Admitted.judge_eq (admitted : h.Admitted r) :
    h.judge r =
      if (r.declaredLength?.any fun n => h.maxBodySize < n) = true ∨
        h.maxBodySize < r.body.content.length then .respond .tooLarge
      else if r.body.breaksOff = true then
        .respond (.badRequest "failed to read the request body")
      else
        match payload r.body.content with
        | .error text => .respond (.badRequest text)
        | .ok members => .accept (entryOf members r.info) := by
  obtain ⟨root, known, post⟩ := admitted
  have notProbe : ¬ ("POST" = "GET" ∧ r.body.isEmpty = true) := fun both => absurd both.1 (by decide)
  have read := r.body.read_eq h.maxBodySize
  rw [judge_of_root root]
  simp only [ingest, post, known, read, Bool.and_eq_true, decide_eq_true_eq, notProbe, if_false,
    Bool.not_true, Bool.false_eq_true, ne_eq, not_true_eq_false]
  by_cases announced : (r.declaredLength?.any fun n => h.maxBodySize < n) = true
  · simp only [announced, true_or, if_true]
  · by_cases large : h.maxBodySize < r.body.content.length
    · simp only [announced, large, or_true, if_true, if_false, Bool.false_eq_true]
    · by_cases breaksOff : r.body.breaksOff = true
      · simp only [announced, large, breaksOff, or_self, if_true, if_false, Bool.false_eq_true]
      · simp only [announced, large, breaksOff, or_self, if_false, Bool.false_eq_true]
        cases payload r.body.content <;> rfl

theorem fits_of_passes (passes : Check.size.Passes h r) :
    ¬ ((r.declaredLength?.any fun n => h.maxBodySize < n) = true ∨
      h.maxBodySize < r.body.content.length) := by
  obtain ⟨announced, small⟩ := Check.passes_size_iff.1 passes
  have fits : (r.declaredLength?.any fun n => h.maxBodySize < n) = false := by
    cases declared : r.declaredLength? with
    | none => rfl
    | some n => simpa using announced n declared
  simpa [fits] using small

theorem judge_of_decides {c : Check} {response : Response} (decides : Check.Decides h r c response) :
    h.judge r = .respond response := by
  obtain ⟨earlier, fails⟩ := decides
  cases fails with
  | health asked => simp only [judge, asked, if_true]
  | elsewhere other notRoot => simp only [judge, other, notRoot, if_false]
  | probe get bare =>
    have root := Check.passes_path_iff.1 (earlier .path (by decide))
    rw [judge_of_root root]
    simp [ingest, get, bare]
  | stranger unknown =>
    have root := Check.passes_path_iff.1 (earlier .path (by decide))
    have notProbe := Check.passes_probe_iff.1 (earlier .probe (by decide))
    rw [judge_of_root root]
    simp [ingest, notProbe, unknown]
  | method other =>
    have root := Check.passes_path_iff.1 (earlier .path (by decide))
    have notProbe := Check.passes_probe_iff.1 (earlier .probe (by decide))
    have known := Check.passes_policy_iff.1 (earlier .policy (by decide))
    rw [judge_of_root root]
    simp [ingest, notProbe, known, other]
  | announced declared large =>
    have admitted := admitted_of_passes earlier (by decide)
    simp [admitted.judge_eq, declared, large]
  | large large =>
    have admitted := admitted_of_passes earlier (by decide)
    simp [admitted.judge_eq, large]
  | broken breaksOff =>
    have admitted := admitted_of_passes earlier (by decide)
    have small := fits_of_passes (earlier .size (by decide))
    simp only [admitted.judge_eq, small, breaksOff, if_true, if_false]
  | notObject complete undecoded =>
    have admitted := admitted_of_passes earlier (by decide)
    have small := fits_of_passes (earlier .size (by decide))
    simp only [admitted.judge_eq, small, complete, undecoded, if_false, Bool.false_eq_true]

theorem judge_of_passes (all : ∀ c ∈ Check.order, c.Passes h r) :
    ∃ members, Json.Value.read r.body.content = .ok (.object members) ∧
      h.judge r = .accept (entryOf members r.info) := by
  have admitted := admitted_of_passes all (by decide)
  have small := fits_of_passes (all .size (by decide))
  obtain ⟨complete, members, decoded⟩ := Check.passes_payload_iff.1 (all .payload (by decide))
  have payload := payload_eq_ok_iff.2 decoded
  refine ⟨members, decoded, ?_⟩
  simp only [admitted.judge_eq, small, complete, payload, if_false, Bool.false_eq_true]

theorem judge_eq_respond_iff {response : Response} :
    h.judge r = .respond response ↔ ∃ c, Check.Decides h r c response := by
  constructor
  · intro verdict
    obtain all | ⟨c, other, decides⟩ := Check.all_pass_or_decides h r
    · obtain ⟨members, -, accepted⟩ := judge_of_passes all
      cases verdict.symm.trans accepted
    · cases verdict.symm.trans (judge_of_decides decides)
      exact ⟨c, decides⟩
  · rintro ⟨c, decides⟩
    exact judge_of_decides decides

theorem judge_eq_accept_iff {e : Entry} :
    h.judge r = .accept e ↔ (∀ c ∈ Check.order, c.Passes h r) ∧
      ∃ members, Json.Value.read r.body.content = .ok (.object members) ∧
        parse (some members) (some r.info) = .ok e := by
  constructor
  · intro verdict
    obtain all | ⟨c, response, decides⟩ := Check.all_pass_or_decides h r
    · obtain ⟨members, decoded, accepted⟩ := judge_of_passes all
      cases verdict.symm.trans accepted
      exact ⟨all, members, decoded, rfl⟩
    · cases verdict.symm.trans (judge_of_decides decides)
  · rintro ⟨all, members, decoded, parsed⟩
    obtain ⟨members', decoded', accepted⟩ := judge_of_passes all
    cases decoded.symm.trans decoded'
    cases parsed
    exact accepted

/-! ### Answers -/

theorem answer_of_accept {e : Entry} (accepted : h.judge r = .accept e) (isOpen : Bool) :
    h.answer isOpen r = if isOpen then (.created, some e) else (.closed, none) := by
  rw [answer, accepted]

theorem answer_of_respond {response : Response} (verdict : h.judge r = .respond response)
    (isOpen : Bool) : h.answer isOpen r = (response, none) := by
  rw [answer, verdict]

end Handler

namespace Check

variable {h : Handler} {r : Request} {c : Check} {response : Response}

theorem Fails.status (fails : c.Fails h r response) :
    response.status ≠ Response.created.status ∧ response.status ≠ Response.closed.status := by
  cases fails <;> exact ⟨of_decide_eq_true rfl, of_decide_eq_true rfl⟩

theorem head?_toList_payload_error {body : Bytes} {text : String}
    (undecoded : Handler.payload body = .error text) :
    text.toList.head? = some 'e' ∨ text.toList.head? = some 'f' := by
  unfold Handler.payload at undecoded
  split at undecoded
  · cases undecoded
  · cases undecoded
    exact .inl (by simp)
  · cases undecoded
    exact .inr (by simp)

theorem Fails.text_ne (fails : c.Fails h r response) :
    response.text ≠ ParseError.missingInput.message := by
  cases fails with
  | @notObject text _ undecoded =>
    intro same
    have same : text = ParseError.missingInput.message := same
    obtain first | first := head?_toList_payload_error undecoded
    all_goals
      rw [same] at first
      exact absurd first (by decide)
  | _ => decide

end Check

/-! ### In front of a pipeline -/

section

variable {σ : Type}

def Handler.handle (h : Handler) (r : Request) (p : Running σ) : Response × Running σ :=
  match h.judge r with
  | .respond response => (response, p)
  | .accept e =>
    let (accepted, p) := p.send e
    (if accepted then .created else .closed, p)

theorem Handler.handle_eq (h : Handler) (r : Request) (p : Running σ) :
    (h.handle r p).1 = (h.answer p.isOpen r).1 ∧
      (h.handle r p).2.isOpen = p.isOpen ∧
      (h.handle r p).2.accepted = p.accepted ++ (h.answer p.isOpen r).2.toList := by
  cases verdict : h.judge r with
  | respond response => simp [handle, verdict, answer_of_respond verdict]
  | accept e =>
    cases hc : p.channel <;>
      simp [handle, verdict, answer_of_accept verdict, Running.send, Running.isOpen, hc]

variable [Operator σ]

/-- Requests are handled one after another in front of a pipeline, and meanwhile the pipeline goes on with
its own work: what was answered, and the entries that came in by the requests. -/
inductive Serves (h : Handler) :
    Running σ → List (Request × Response) → List Entry → Running σ → Prop
  | nil (p : Running σ) : Serves h p [] [] p
  | request {p q : Running σ} {exchanges : List (Request × Response)} {sent more : List Entry}
      (r : Request) (came : (h.handle r p).2.accepted = p.accepted ++ sent)
      (rest : Serves h (h.handle r p).2 exchanges more q) :
      Serves h p ((r, (h.handle r p).1) :: exchanges) (sent ++ more) q
  | work {p between q : Running σ} {asked : List Failure} {exchanges : List (Request × Response)}
      {sent : List Entry} (steps : p.Reaches asked between)
      (rest : Serves h between exchanges sent q) : Serves h p exchanges sent q

namespace Serves

variable {h : Handler} {p q : Running σ} {exchanges : List (Request × Response)} {sent : List Entry}

def isCreated (exchange : Request × Response) : Bool := exchange.2.status = 201

/-- What one request sends is what it brings, if it is answered with `created`, and else nothing. -/
theorem map_toList_answer (h : Handler) (r : Request) (isOpen : Bool) :
    (h.answer isOpen r).2.toList.map Verdict.accept =
      ([(r, (h.answer isOpen r).1)].filter isCreated).map fun exchange => h.judge exchange.1 := by
  cases verdict : h.judge r with
  | respond response =>
    obtain ⟨c, decides⟩ := Handler.judge_eq_respond_iff.1 verdict
    have status : response.status ≠ 201 := decides.fails.status.1
    simp [Handler.answer_of_respond verdict, isCreated, status]
  | accept e =>
    cases isOpen <;>
      simp [Handler.answer_of_accept verdict, isCreated, verdict, Response.created, Response.closed]

/-- The entries that come in are those of the requests answered with `created`, in their order. -/
theorem map_accept_sent (serves : Serves h p exchanges sent q) :
    sent.map Verdict.accept = (exchanges.filter isCreated).map fun exchange => h.judge exchange.1 := by
  induction serves with
  | nil => rfl
  | @request p q exchanges sent more r came rest ih =>
    obtain ⟨answered, -, accepted⟩ := h.handle_eq r p
    have sends : sent = (h.answer p.isOpen r).2.toList :=
      List.append_cancel_left (came.symm.trans accepted)
    rw [List.map_append, ih, sends, map_toList_answer, ← List.map_append, ← List.filter_append,
      ← answered, List.singleton_append]
  | work steps rest ih => exact ih

/-- Nothing comes in by requests but through the channel of the pipeline. -/
theorem sublist_accepted (serves : Serves h p exchanges sent q) :
    ∃ more, q.accepted = p.accepted ++ more ∧ sent.Sublist more := by
  induction serves with
  | nil p => exact ⟨[], (List.append_nil _).symm, .slnil⟩
  | @request p q exchanges sent more r came rest ih =>
    obtain ⟨later, accepted, sublist⟩ := ih
    refine ⟨sent ++ later, ?_, sublist.append_left sent⟩
    rw [accepted, came, List.append_assoc]
  | @work p between q asked exchanges sent steps rest ih =>
    obtain ⟨later, accepted, sublist⟩ := ih
    obtain ⟨y, yields, -⟩ := steps.becomes
    have own : between.accepted = p.accepted ++ y.accepted := by
      simpa [Running.yield] using congrArg Yield.accepted yields
    refine ⟨y.accepted ++ later, ?_, sublist.trans (List.sublist_append_right _ _)⟩
    rw [accepted, own, List.append_assoc]

theorem closed_of_closed (serves : Serves h p exchanges sent q) (closed : p.isOpen = false) :
    q.isOpen = false := by
  induction serves with
  | nil => exact closed
  | @request p q exchanges sent more r came rest ih =>
    obtain ⟨-, stays, -⟩ := h.handle_eq r p
    exact ih (stays.trans closed)
  | work steps rest ih =>
    have channel := (steps.becomes.rests (by simpa [Running.isOpen] using closed)).1
    exact ih (by simp [Running.isOpen, channel])

/-- In front of a pipeline that is open to the end, or closed from the beginning, all requests get the
answer for such a pipeline. -/
theorem answered {isOpen : Bool} (serves : Serves h p exchanges sent q)
    (steady : isOpen = true ∧ q.isOpen = true ∨ isOpen = false ∧ p.isOpen = false) :
    ∀ exchange ∈ exchanges, exchange.2 = (h.answer isOpen exchange.1).1 := by
  induction serves with
  | nil => simp
  | @request p q exchanges sent more r came rest ih =>
    obtain ⟨answer, stays, -⟩ := h.handle_eq r p
    have now : p.isOpen = isOpen := by
      obtain ⟨rfl, opened⟩ | ⟨rfl, closed⟩ := steady
      · by_contra closed
        have := rest.closed_of_closed (stays.trans (by simpa using closed))
        simp [this] at opened
      · exact closed
    refine List.forall_mem_cons.2 ⟨?_, ih (steady.imp_right fun ⟨hc, closed⟩ => ⟨hc, ?_⟩)⟩
    · exact answer.trans (by rw [now])
    · exact stays.trans closed
  | work steps rest ih =>
    refine ih (steady.imp_right fun ⟨hc, closed⟩ => ⟨hc, ?_⟩)
    have channel := (steps.becomes.rests (by simpa [Running.isOpen] using closed)).1
    simp [Running.isOpen, channel]

theorem sent_eq_nil (serves : Serves h p exchanges sent q) (closed : p.isOpen = false) : sent = [] := by
  have answers := serves.answered (.inr ⟨rfl, closed⟩)
  have refused : exchanges.filter isCreated = [] := by
    refine List.filter_eq_nil_iff.2 fun exchange mem created => ?_
    have status : exchange.2.status = 201 := by simpa [isCreated] using created
    rw [answers exchange mem] at status
    cases verdict : h.judge exchange.1 with
    | accept e => simp [Handler.answer_of_accept verdict, Response.closed] at status
    | respond response =>
      obtain ⟨c, decides⟩ := Handler.judge_eq_respond_iff.1 verdict
      rw [Handler.answer_of_respond verdict] at status
      exact decides.fails.status.1 status
  have brought := serves.map_accept_sent
  rw [refused] at brought
  exact List.map_eq_nil_iff.1 brought

end Serves

end

/-! ### The contract -/

section

variable (h : Handler)

/-- A request passes all checks and brings its entry, or the first check that it fails has the answer. -/
theorem created_or_decided (r : Request) :
    ((∀ c ∈ Check.order, c.Passes h r) ∧ ∃ members e,
      Json.Value.read r.body.content = .ok (.object members) ∧
      parse (some members) (some r.info) = .ok e ∧
      h.answer true r = (.created, some e) ∧ h.answer false r = (.closed, none)) ∨
    ∃ c response, Check.Decides h r c response ∧
      (∀ isOpen, h.answer isOpen r = (response, none)) ∧
      response.status ≠ 201 ∧ response.status ≠ 503 ∧
      response.text ≠ ParseError.missingInput.message := by
  cases verdict : h.judge r with
  | accept e =>
    obtain ⟨all, members, decoded, parsed⟩ := Handler.judge_eq_accept_iff.1 verdict
    exact .inl ⟨all, members, e, decoded, parsed, Handler.answer_of_accept verdict true,
      Handler.answer_of_accept verdict false⟩
  | respond response =>
    obtain ⟨c, decides⟩ := Handler.judge_eq_respond_iff.1 verdict
    exact .inr ⟨c, response, decides, Handler.answer_of_respond verdict, decides.fails.status.1,
      decides.fails.status.2, decides.fails.text_ne⟩

theorem status_eq_created_iff_passes (r : Request) :
    (h.answer true r).1.status = 201 ↔ ∀ c ∈ Check.order, c.Passes h r := by
  obtain ⟨all, members, e, -, -, answer, -⟩ | ⟨c, response, decides, answer, status, -⟩ :=
    created_or_decided h r
  · simp only [answer, Response.created, true_iff]
    exact all
  · simp only [answer, status, false_iff]
    intro all
    obtain ⟨_, _, accepted⟩ := Handler.judge_of_passes all
    cases (Handler.judge_of_decides decides).symm.trans accepted

variable {h} {r : Request}

theorem Check.size_fails_iff (whole : r.WellFormed) {response : Response} :
    Check.size.Fails h r response ↔ h.maxBodySize < r.body.content.length ∧ response = .tooLarge := by
  constructor
  · intro fails
    cases fails with
    | announced declared large =>
      rw [whole.announced _ declared] at large
      exact ⟨large, rfl⟩
    | large large => exact ⟨large, rfl⟩
  · rintro ⟨large, rfl⟩
    exact .large large

theorem Check.payload_fails_iff (whole : r.WellFormed) {response : Response} :
    Check.payload.Fails h r response ↔
      ∃ text, Handler.payload r.body.content = .error text ∧ response = .badRequest text := by
  constructor
  · intro fails
    cases fails with
    | broken breaksOff => simp [whole.complete] at breaksOff
    | notObject _ undecoded => exact ⟨_, undecoded, rfl⟩
  · rintro ⟨text, undecoded, rfl⟩
    exact .notObject whole.complete undecoded

theorem status_eq_created_iff (whole : r.WellFormed) :
    (h.answer true r).1.status = 201 ↔
      r.target.path = "/" ∧ r.method = "POST" ∧ h.auth.admits r.headers = true ∧
        r.body.content.length ≤ h.maxBodySize ∧
        ∃ members, Json.Value.read r.body.content = .ok (.object members) := by
  have size : Check.size.Passes h r ↔ r.body.content.length ≤ h.maxBodySize := by
    rw [Check.passes_size_iff]
    exact and_iff_right_of_imp fun small n declared => whole.announced n declared ▸ small
  rw [status_eq_created_iff_passes]
  simp only [Check.order, List.forall_mem_cons, Check.passes_path_iff, Check.passes_probe_iff,
    Check.passes_policy_iff, Check.passes_method_iff, size, Check.passes_payload_iff, whole.complete,
    true_and]
  constructor
  · rintro ⟨root, -, known, post, small, decoded, -⟩
    exact ⟨root, post, known, small, decoded⟩
  · rintro ⟨root, post, known, small, decoded⟩
    have notProbe : ¬ (r.method = "GET" ∧ r.body.isEmpty = true) := by simp [post]
    exact ⟨root, notProbe, known, post, small, decoded, by simp⟩

/-- Whoever may not send is told so, whatever else is wrong with the request. -/
theorem answer_of_stranger (root : r.target.path = "/") (other : Check.probe.Passes h r)
    (unknown : h.auth.admits r.headers = false) (isOpen : Bool) :
    h.answer isOpen r = (.forbidden, none) := by
  have decides : Check.Decides h r .policy .forbidden :=
    ⟨List.forall_mem_cons.2 ⟨Check.passes_path_iff.2 root, List.forall_mem_cons.2 ⟨other, by simp⟩⟩,
      .stranger unknown⟩
  exact Handler.answer_of_respond (Handler.judge_of_decides decides) isOpen

end

/-- Over a pipeline that is open, each request that is answered with `created` sends one entry, the one
parsed from its object, in the order of the requests, and no other request sends any. A request is
answered with `created` just if it passes all checks; otherwise the first check in their order that it
fails has the answer. So two requests of strangers to the root path are answered alike. Over a pipeline
that is closed, requests that pass all checks are told so and send nothing. -/
theorem ingest_contract (h : Handler) :
    (∀ r : Request,
      ((∀ c ∈ Check.order, c.Passes h r) ∧ ∃ members e,
        Json.Value.read r.body.content = .ok (.object members) ∧
        parse (some members) (some r.info) = .ok e ∧
        h.answer true r = (.created, some e) ∧ h.answer false r = (.closed, none)) ∨
      ∃ c response, Check.Decides h r c response ∧
        (∀ isOpen, h.answer isOpen r = (response, none)) ∧
        response.status ≠ 201 ∧ response.status ≠ 503 ∧
        response.text ≠ ParseError.missingInput.message) ∧
    (∀ r : Request, r.WellFormed →
      ((h.answer true r).1.status = 201 ↔
        r.target.path = "/" ∧ r.method = "POST" ∧ h.auth.admits r.headers = true ∧
          r.body.content.length ≤ h.maxBodySize ∧
          ∃ members, Json.Value.read r.body.content = .ok (.object members)) ∧
      (∀ response, Check.size.Fails h r response ↔
        h.maxBodySize < r.body.content.length ∧ response = .tooLarge) ∧
      (∀ response, Check.payload.Fails h r response ↔
        ∃ text, Handler.payload r.body.content = .error text ∧ response = .badRequest text)) ∧
    (∀ r s : Request, r.target.path = "/" → s.target.path = "/" →
      Check.probe.Passes h r → Check.probe.Passes h s →
      h.auth.admits r.headers = false → h.auth.admits s.headers = false →
      ∀ isOpen, h.answer isOpen r = h.answer isOpen s) ∧
    (∀ {σ : Type} [Operator σ] {p q : Running σ} {exchanges : List (Request × Response)}
        {sent : List Entry}, Serves h p exchanges sent q →
      sent.map Verdict.accept =
        (exchanges.filter Serves.isCreated).map (fun exchange => h.judge exchange.1) ∧
      (∃ more, q.accepted = p.accepted ++ more ∧ sent.Sublist more) ∧
      (q.isOpen = true → ∀ exchange ∈ exchanges, exchange.2 = (h.answer true exchange.1).1) ∧
      (p.isOpen = false → sent = [] ∧
        ∀ exchange ∈ exchanges, exchange.2 = (h.answer false exchange.1).1)) := by
  refine ⟨created_or_decided h, fun r whole => ?_, ?_, ?_⟩
  · exact ⟨status_eq_created_iff whole, fun _ => Check.size_fails_iff whole,
      fun _ => Check.payload_fails_iff whole⟩
  · intro r s rootR rootS otherR otherS unknownR unknownS isOpen
    rw [answer_of_stranger rootR otherR unknownR, answer_of_stranger rootS otherS unknownS]
  · intro σ _ p q exchanges sent serves
    refine ⟨serves.map_accept_sent, serves.sublist_accepted, fun opened => ?_, fun closed => ?_⟩
    · exact serves.answered (.inl ⟨rfl, opened⟩)
    · exact ⟨serves.sent_eq_nil closed, serves.answered (.inr ⟨rfl, closed⟩)⟩

namespace Door

/-- A handler that wants to see a token, and takes eight bytes at most. -/
def door : Handler := ⟨.token "x-token" ["open"], 8⟩

def letter : Request where
  headers := [("x-token", Text.encode "open"), ("content-length", Text.encode "2")]
  body := .whole (Text.encode "{}")
  remoteAddress := "10.0.0.1:80"

def advertisement : Request where
  body := .whole (Text.encode "{}")
  remoteAddress := "10.0.0.2:80"

/-- From a stranger, and wrong in every other respect. -/
def noise : Request where
  method := "PUT"
  body := .whole (Text.encode "knock, knock")
  remoteAddress := "10.0.0.2:80"

def delivered : Running Fuse := (door.handle letter Fuse.lit).2.elapse 5

def exchanges : List (Request × Response) :=
  [(letter, (door.handle letter Fuse.lit).1), (noise, (door.handle noise delivered).1)]

theorem door_ingest_contract :
    letter.WellFormed ∧ Serves door Fuse.lit exchanges [entryOf [] letter.info] delivered ∧
    (door.answer true letter).1.status = 201 ∧
    [Verdict.accept (entryOf [] letter.info)] =
      (exchanges.filter Serves.isCreated).map (fun exchange => door.judge exchange.1) ∧
    (∀ exchange ∈ exchanges, exchange.2 = (door.answer true exchange.1).1) ∧
    ∀ isOpen, door.answer isOpen advertisement = door.answer isOpen noise := by
  obtain ⟨-, whole, strangers, served⟩ := ingest_contract door
  have wellFormed : letter.WellFormed := by
    have length : letter.body.content.length = 2 := by cbv
    have announces : letter.declaredLength? = some 2 := by cbv
    exact ⟨rfl, fun n announced => by
      rw [length, ← Option.some.inj (announces.symm.trans announced)]⟩
  have known : door.auth.admits letter.headers = true := by cbv
  have small : letter.body.content.length ≤ door.maxBodySize := by decide +kernel
  have decoded : Json.Value.read letter.body.content = .ok (.object []) := by cbv
  have serves : Serves door Fuse.lit exchanges [entryOf [] letter.info] delivered := by
    have brought : (door.handle letter Fuse.lit).2.accepted = [entryOf [] letter.info] := by cbv
    have turnedAway : (door.handle noise delivered).2 = delivered := by cbv
    have last : Serves door delivered [(noise, (door.handle noise delivered).1)] [] delivered :=
      .request noise (by rw [turnedAway, List.append_nil]) (by rw [turnedAway]; exact .nil _)
    exact .request letter brought (.work (.elapse 5 .start) last)
  obtain ⟨sent, -, answered, -⟩ := served serves
  refine ⟨wellFormed, serves, ?_, sent, answered (by decide +kernel), ?_⟩
  · exact (whole letter wellFormed).1.2 ⟨rfl, rfl, known, small, [], decoded⟩
  · have post : Check.probe.Passes door advertisement := Check.passes_probe_iff.2 (by decide)
    have put : Check.probe.Passes door noise := Check.passes_probe_iff.2 (by decide)
    exact strangers advertisement noise rfl rfl post put rfl rfl

/-- Asks whether the server lives, with a body that is sent in chunks, of which there are none. -/
def bareChunks : Request where
  method := "GET"
  body := .streamed [] false
  remoteAddress := "10.0.0.1:80"

/-- Whether a body is empty is asked before it is read, so one in chunks does not count as empty. -/
theorem bareChunks_is_not_probe :
    bareChunks.WellFormed ∧ bareChunks.target.path = "/" ∧ bareChunks.method = "GET" ∧
      bareChunks.body.content = [] ∧ (Handler.answer {} true bareChunks).1 = .notFound ∧
      Response.notFound.status ≠ 200 :=
  ⟨⟨rfl, by decide⟩, rfl, rfl, rfl, by decide, by decide⟩

end Door

end LogIntake.Http
