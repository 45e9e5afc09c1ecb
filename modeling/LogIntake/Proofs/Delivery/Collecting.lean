import LogIntake.Proofs.Batching.Cut
import LogIntake.Proofs.Delivery.Offers

/-!
A batcher in front of a delivery. The entries that came are in the batches that were offered, in the
batches that wait for it, or in the buffer, in this order and each of them once; in the end they are
all in batches that were offered.
-/
namespace LogIntake

open Batcher Delivery

/-- Entries have come to a batcher in front of a delivery that has offered the logs in the past and
those of its events. -/
structure Collects (limits : BatchLimits) (entries : List Entry) (past : List Logs) (b : Batcher)
    (d : Delivery) : Prop where
  batches : ∃ taken, past ++ offered d.events = taken.map Logs.ofBatch ∧
    Cuts { limits } entries (taken ++ d.queue) b
  runs : b.Runs
  smooth : d.Smooth
  opened : d.closed = false

namespace Collects

variable {limits : BatchLimits} {entries more : List Entry} {past : List Logs} {b b' : Batcher}
  {d d' : Delivery} {come taken : List Batch}

theorem onward (h : Collects limits entries past b d) (cuts : Cuts b more come b') (runs : b'.Runs)
    (offers : Offers d come taken d') : Collects limits (entries ++ more) past b' d' := by
  obtain ⟨before, hb, hc⟩ := h.batches
  have batches : before ++ taken ++ d'.queue = before ++ d.queue ++ come := by
    rw [List.append_assoc, ← offers.queue, List.append_assoc]
  refine ⟨⟨before ++ taken, ?_, ?_⟩, runs, offers.smooth, offers.closed.trans h.opened⟩
  · rw [offers.events, ← List.append_assoc, hb, List.map_append]
  · rw [batches]
    exact hc.trans cuts

theorem offers (h : Collects limits entries past b d) (k : Offers d [] taken d') :
    Collects limits entries past b d' := by
  obtain ⟨before, -, hc⟩ := h.batches
  simpa using h.onward (.refl hc.sound) h.runs k

theorem feed (h : Collects limits entries past b d) (arrivals : List (Nat × Entry)) (t : Nat) :
    Collects limits (entries ++ arrivals.map Prod.snd) past ((b.feed arrivals).2.elapse t).2
      (d.feed ((b.feed arrivals).1 ++ ((b.feed arrivals).2.elapse t).1.toList)) := by
  obtain ⟨before, -, hc⟩ := h.batches
  obtain ⟨fed, runs⟩ := cuts_feed hc.sound h.runs arrivals
  have cuts := fed.trans (cuts_elapse fed.sound t)
  rw [List.append_nil, ← List.map_append] at cuts
  obtain ⟨taken, ho⟩ := offers_feed _ h.smooth h.opened
  exact h.onward cuts (runs_elapse runs t) ho

theorem setEvents (h : Collects limits entries past b d) :
    Collects limits entries (past ++ offered d.events) b { d with events := [] } where
  batches := by simpa [offered] using h.batches
  runs := h.runs
  smooth := ⟨h.smooth.accepts, h.smooth.activity, h.smooth.ended⟩
  opened := h.opened

/-- The batcher stops and the delivery ends: nothing has been lost, doubled or moved. -/
theorem finish (h : Collects limits entries past b d) (limit : Option Nat) {last : Delivery}
    (ends : (drain { d with queue := d.queue ++ b.stop.1.toList }).run limit = last)
    (atEnd : last.isOver = true) :
    ∃ batches : List Batch, past ++ offered last.events = batches.map Logs.ofBatch ∧
      (∀ batch ∈ batches, Fits limits batch) ∧ batches.flatten = entries := by
  obtain ⟨before, hb, hc⟩ := h.batches
  have smooth := smooth_drain h.smooth h.opened (d.queue ++ b.stop.1.toList)
  obtain ⟨taken, ho⟩ := offers_run limit smooth
  rw [ends] at ho
  have empty : last.queue = [] := queue_of_isOver ho.smooth atEnd
  have queue : taken = d.queue ++ b.stop.1.toList := by
    simpa [drain, empty] using ho.queue.symm
  have events : offered last.events = offered d.events ++ taken.map Logs.ofBatch := ho.events
  have cuts : Cuts { limits } entries (before ++ taken) b.stop.2 := by
    rw [queue, ← List.append_assoc]
    simpa using hc.trans (cuts_stop hc.sound)
  refine ⟨before ++ taken, ?_, cuts.fits, ?_⟩
  · rw [events, ← List.append_assoc, hb, List.map_append]
  · have conserved := cuts.conserved
    rw [buffer_stop hc.sound, List.append_nil, List.nil_append] at conserved
    exact conserved.symm

end Collects

end LogIntake
