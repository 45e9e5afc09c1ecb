import LogIntake.Proofs.Http.Ingest

/-!
The limit on the size of a body. A body is read chunk by chunk, and a step that would hold more bytes than
the limit is not made. So it is the number of bytes that counts: neither the way in which a body
is cut nor whether its length is announced makes a difference to the answer.
-/
namespace LogIntake.Http

open Text (Bytes)

/-! ### Reading -/

namespace Reading

inductive Reaches (limit : Nat) (r₀ : Reading) : Reading → Prop
  | start : Reaches limit r₀ r₀
  | step {r r' : Reading} (before : Reaches limit r₀ r) (next : r.step limit = .next r') :
      Reaches limit r₀ r'

variable {limit : Nat} {r₀ r r' : Reading}

/-- No step goes on with more bytes than the limit, whatever was held before. -/
theorem length_held_of_next (next : r.step limit = .next r') : r'.held.length ≤ limit := by
  obtain ⟨chunk, rest, -, room, rfl⟩ := exists_of_next next
  rwa [List.length_append]

theorem append_flatten_of_next (next : r.step limit = .next r') :
    r'.held ++ r'.left.flatten = r.held ++ r.left.flatten := by
  obtain ⟨chunk, rest, left, -, rfl⟩ := exists_of_next next
  rw [left, List.flatten_cons, List.append_assoc]

namespace Reaches

theorem behind (next : r₀.step limit = .next r') (h : r'.Reaches limit r) : r₀.Reaches limit r := by
  induction h with
  | start => exact .step .start next
  | step before later ih => exact ih.step later

theorem length_held_le (fits : r₀.held.length ≤ limit) (h : r₀.Reaches limit r) :
    r.held.length ≤ limit := by
  cases h with
  | start => exact fits
  | step before next => exact length_held_of_next next

/-- What reading gives in the end, it gives from each state that it comes to. -/
theorem run_eq (h : r₀.Reaches limit r) : r.run limit = r₀.run limit := by
  induction h with
  | start => rfl
  | step before next ih => rw [← ih, run_of_next next]

theorem append_flatten (h : r₀.Reaches limit r) :
    r.held ++ r.left.flatten = r₀.held ++ r₀.left.flatten := by
  induction h with
  | start => rfl
  | step before next ih => rw [append_flatten_of_next next, ih]

end Reaches

theorem exists_last (limit : Nat) (r : Reading) :
    ∃ last, r.Reaches limit last ∧ last.step limit = .done (r.run limit) := by
  fun_induction Reading.run limit r with
  | case1 r r' next ih =>
    obtain ⟨last, h, done⟩ := ih
    exact ⟨last, h.behind next, done⟩
  | case2 r result done => exact ⟨r, .start, done⟩

end Reading

theorem Body.read_eq_tooLarge_iff {limit : Nat} {b : Body} :
    b.read limit = .error .tooLarge ↔ limit < b.content.length := by
  rw [b.read_eq]
  by_cases full : limit < b.content.length
  · simp only [full, if_true]
  · refine iff_of_false (fun large => ?_) full
    rw [if_neg full] at large
    split at large <;> cases large

/-- A body is too large just if reading comes to a chunk for which there is no room. -/
theorem Body.read_eq_tooLarge_iff_reaches {limit : Nat} {b : Body} :
    b.read limit = .error .tooLarge ↔
      ∃ r chunk rest, b.reading.Reaches limit r ∧ r.left = chunk :: rest ∧
        limit < r.held.length + chunk.length := by
  constructor
  · intro large
    obtain ⟨last, h, done⟩ := b.reading.exists_last limit
    rw [show b.reading.run limit = .error .tooLarge from large] at done
    obtain ⟨-, ended⟩ | ⟨chunk, rest, left, ⟨full, -⟩ | ⟨-, taken⟩⟩ := last.step_cases limit
    · have other := Reading.Step.done.inj (ended.symm.trans done)
      split at other <;> cases other
    · exact ⟨last, chunk, rest, h, left, full⟩
    · cases taken.symm.trans done
  · rintro ⟨r, chunk, rest, h, left, full⟩
    rw [Body.read_eq_tooLarge_iff, Body.content]
    have whole : r.held ++ r.left.flatten = b.chunks.flatten := h.append_flatten
    rw [← whole, left]
    simp only [List.flatten_cons, List.length_append]
    omega

/-! ### The answer -/

/-- If the headers announce the length of the body, it is the true one. -/
def Request.AnnouncesLength (r : Request) : Prop :=
  ∀ n, r.declaredLength? = some n → n = r.body.content.length

namespace Handler

variable {h : Handler} {r s : Request}

def verdictOn (content : Bytes) (info : RequestInfo) : Verdict :=
  match payload content with
  | .error text => .respond (.badRequest text)
  | .ok members => .accept (entryOf members info)

theorem Admitted.judge_of_announces (admitted : h.Admitted r) (announces : r.AnnouncesLength) :
    h.judge r =
      if h.maxBodySize < r.body.content.length then .respond .tooLarge
      else if r.body.breaksOff = true then
        .respond (.badRequest "failed to read the request body")
      else verdictOn r.body.content r.info := by
  rw [admitted.judge_eq]
  by_cases full : h.maxBodySize < r.body.content.length
  · rw [if_pos (.inr full), if_pos full]
  · have small : (r.declaredLength?.any fun n => h.maxBodySize < n) = false := by
      cases declared : r.declaredLength? with
      | none => rfl
      | some n => simpa [announces n declared] using full
    rw [if_neg (by simpa [small] using full), if_neg full]
    rfl

theorem status_verdictOn_ne (content : Bytes) (info : RequestInfo) {response : Response}
    (verdict : verdictOn content info = .respond response) : response.status ≠ 413 := by
  rw [verdictOn] at verdict
  split at verdict
  · cases verdict
    exact of_decide_eq_true rfl
  · cases verdict

theorem Admitted.status_eq_iff (admitted : h.Admitted r) (announces : r.AnnouncesLength)
    (isOpen : Bool) :
    (h.answer isOpen r).1.status = 413 ↔ h.maxBodySize < r.body.content.length := by
  have verdict := admitted.judge_of_announces announces
  by_cases full : h.maxBodySize < r.body.content.length
  · rw [if_pos full] at verdict
    simp only [answer_of_respond verdict, full, iff_true]
    rfl
  · refine iff_of_false ?_ full
    rw [if_neg full] at verdict
    cases judged : h.judge r with
    | respond response =>
      rw [answer_of_respond judged]
      rw [judged] at verdict
      split at verdict
      · cases verdict
        decide
      · exact status_verdictOn_ne _ _ verdict.symm
    | accept e =>
      rw [answer_of_accept judged]
      cases isOpen <;> exact of_decide_eq_true rfl

/-- Whether a body is too large, and what is made of one that is not, depends on its bytes: a request that
is let in is answered so just if its bytes are more than the limit, it then sends nothing, and otherwise
what is decoded are the bytes of all chunks. The length that the headers announce and the chunks that come
give the same answer. Reading goes by steps, and in no state that these come to are more bytes held than
the limit. -/
theorem limit_counts_bytes (admitted : h.Admitted r) (announces : r.AnnouncesLength) :
    let read := r.body.read h.maxBodySize
    (∀ isOpen, (h.answer isOpen r).1.status = 413 ↔ h.maxBodySize < r.body.content.length) ∧
    (h.maxBodySize < r.body.content.length →
      (∀ isOpen, h.answer isOpen r = (.tooLarge, none)) ∧
      ∀ {σ : Type} (p : Running σ), h.handle r p = (.tooLarge, p)) ∧
    (r.body.content.length ≤ h.maxBodySize → r.body.breaksOff = false →
      read = .ok r.body.chunks.flatten ∧ h.judge r = verdictOn r.body.chunks.flatten r.info) ∧
    (∀ n, r.declaredLength? = some n → (h.maxBodySize < n ↔ read = .error .tooLarge)) ∧
    (∀ state, r.body.reading.Reaches h.maxBodySize state →
      state.held.length ≤ h.maxBodySize ∧ state.run h.maxBodySize = read) ∧
    (∃ last, r.body.reading.Reaches h.maxBodySize last ∧ last.step h.maxBodySize = .done read) ∧
    (read = .error .tooLarge ↔ ∃ state chunk rest,
      r.body.reading.Reaches h.maxBodySize state ∧ state.left = chunk :: rest ∧
        h.maxBodySize < state.held.length + chunk.length) ∧
    ∀ s : Request, h.Admitted s → s.AnnouncesLength → s.info = r.info →
      s.body.content = r.body.content → s.body.breaksOff = r.body.breaksOff →
      ∀ isOpen, h.answer isOpen s = h.answer isOpen r := by
  have verdict := admitted.judge_of_announces announces
  refine ⟨admitted.status_eq_iff announces, fun full => ?_, fun small complete => ?_,
    fun n declared => ?_, fun state reached => ?_, r.body.reading.exists_last h.maxBodySize,
    Body.read_eq_tooLarge_iff_reaches, ?_⟩
  · rw [if_pos full] at verdict
    exact ⟨answer_of_respond verdict, fun p => by rw [handle, verdict]⟩
  · have fits : ¬ h.maxBodySize < r.body.content.length := Nat.not_lt_of_le small
    rw [if_neg fits, complete, if_neg Bool.false_ne_true] at verdict
    have read := r.body.read_eq h.maxBodySize
    rw [if_neg fits, complete, if_neg Bool.false_ne_true] at read
    exact ⟨read, verdict⟩
  · rw [announces n declared, Body.read_eq_tooLarge_iff]
  · exact ⟨reached.length_held_le (Nat.zero_le _), reached.run_eq⟩
  · intro s admittedS announcesS info content breaksOff isOpen
    have same : h.judge s = h.judge r := by
      rw [admittedS.judge_of_announces announcesS, verdict, info, content, breaksOff]
    rw [answer, answer, same]

end Handler

namespace Door

def torn : Request where
  headers := [("x-token", Text.encode "open")]
  body := .streamed [Text.encode "\x7b", [], Text.encode "\x7d"] false
  remoteAddress := "10.0.0.1:80"

def parcel : Request where
  headers := [("x-token", Text.encode "open"), ("content-length", Text.encode "9")]
  body := .streamed [Text.encode "\x7b\"a\": ", [], Text.encode "11", Text.encode "\x7d"] false
  remoteAddress := "10.0.0.1:80"

theorem door_limit_counts_bytes :
    door.Admitted letter ∧ letter.AnnouncesLength ∧ door.Admitted torn ∧ torn.AnnouncesLength ∧
    (∀ isOpen, door.answer isOpen torn = door.answer isOpen letter) ∧
    door.Admitted parcel ∧ parcel.AnnouncesLength ∧
    ∀ isOpen, door.answer isOpen parcel = (.tooLarge, none) := by
  have letterIn : door.Admitted letter := ⟨rfl, by cbv, rfl⟩
  have tornIn : door.Admitted torn := ⟨rfl, by cbv, rfl⟩
  have parcelIn : door.Admitted parcel := ⟨rfl, by cbv, rfl⟩
  have announces : letter.AnnouncesLength := by
    have declared : letter.declaredLength? = some letter.body.content.length := by cbv
    exact fun n same => Option.some.inj (same.symm.trans declared)
  have silent : torn.AnnouncesLength := by
    have declared : torn.declaredLength? = none := by cbv
    exact fun n same => by cases same.symm.trans declared
  have warns : parcel.AnnouncesLength := by
    have declared : parcel.declaredLength? = some parcel.body.content.length := by cbv
    exact fun n same => Option.some.inj (same.symm.trans declared)
  have full : door.maxBodySize < parcel.body.content.length := by decide +kernel
  obtain ⟨-, -, -, -, -, -, -, alike⟩ := Handler.limit_counts_bytes letterIn announces
  obtain ⟨-, refused, -⟩ := Handler.limit_counts_bytes parcelIn warns
  have info : torn.info = letter.info := by cbv
  have content : torn.body.content = letter.body.content := by cbv
  exact ⟨letterIn, announces, tornIn, silent, alike torn tornIn silent info content rfl, parcelIn,
    warns, (refused full).1⟩

end Door

end LogIntake.Http
