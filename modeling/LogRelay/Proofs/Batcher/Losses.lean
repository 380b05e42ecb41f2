import LogRelay.Proofs.Batcher.Timing
import Mathlib.Algebra.GroupWithZero.Nat

/-!
# What a batcher loses

A batcher that ends before all has been handed on loses the events that it holds.  An `Overheard` is a
station with all that its batcher has said, and what was said is set against what came in and what went
out.

* `BatcherNotice.lost`, `reportedLost`: how many events a notice, and all that was said, reports as lost;
* `Overheard.Accounted`, `accounted_move?`: what is known of the events at each stage;
* `Overheard.settled_of_isFinished`: what is lost at the end, and whether it was reported.
-/

namespace LogRelay

/-- The number of events that a notice reports as lost. -/
def BatcherNotice.lost : BatcherNotice → Nat
  | unflushed n | dropping n => n
  | started | inputClosed | overdue | due _ | flushing _ _ | cancelledWaiting | stopped => 0

/-- The number of events that several notices report as lost. -/
def reportedLost (said : List BatcherNotice) : Nat := (said.map BatcherNotice.lost).sum

@[simp]
theorem reportedLost_nil : reportedLost [] = 0 := rfl

@[simp]
theorem reportedLost_cons (n : BatcherNotice) (said : List BatcherNotice) :
    reportedLost (n :: said) = n.lost + reportedLost said := List.sum_cons

@[simp]
theorem reportedLost_append (said more : List BatcherNotice) :
    reportedLost (said ++ more) = reportedLost said + reportedLost more := by
  rw [reportedLost, List.map_append, List.sum_append, reportedLost, reportedLost]

/-- A station, and all that its batcher has said, the oldest first. -/
structure Overheard where
  station : Station
  said : List BatcherNotice := []

namespace Overheard

open Station (Move)

/-- A batcher that is started at `now` between two queues. -/
def start (settings : BatcherSettings) (now : Instant) (input : Queue Event) (output : Queue Batch) :
    Overheard where
  station := .start settings now input output

/-- What the batcher says in a step. -/
def notices (p : Station) : Move → List BatcherNotice
  | .turn =>
    (p.batcher.poll? p.called p.now p.input p.output).elim [] fun (a, _, _) => (p.batcher.answer p.now a).1
  | _ => []

/-- What comes of a step, if it is possible. -/
def move? (q : Overheard) (m : Move) : Option Overheard :=
  (q.station.move? m).map fun p => { station := p, said := q.said ++ notices q.station m }

/-- What comes of several steps, if each is possible. -/
abbrev run? : Overheard → List Move → Option Overheard := runSteps move?

/-! ### What is known of the events at each stage -/

/-- Nothing is lost: all that was received was handed on, or is held, and nothing is reported. -/
structure Whole (q : Overheard) (held : List Event) : Prop where
  received : q.station.received = q.station.handed.flatMap Batch.events ++ held
  reported : reportedLost q.said = 0
  quiet : .cancelledWaiting ∉ q.said

/-- What is known of the events of a batcher that has ended: the last ones are lost, and their number was
reported; or all was called off while a batch waited for room, and then this whole batch is lost without a
word about it, except that it was going to be handed on. -/
inductive Settled (q : Overheard) : Prop where
  | reported (lost : List Event)
      (received : q.station.received = q.station.handed.flatMap Batch.events ++ lost)
      (count : reportedLost q.said = lost.length) (quiet : .cancelledWaiting ∉ q.said)
  | silent (batch : Batch) (before : List BatcherNotice)
      (received : q.station.received = q.station.handed.flatMap Batch.events ++ batch.events)
      (size : 0 < batch.size) (called : q.station.called = true) (count : reportedLost q.said = 0)
      (said : q.said = before ++
        [.flushing q.station.handed.length batch.size, .cancelledWaiting, .stopped])

/-- What is known of the events at each stage. -/
def Accounted (q : Overheard) : Prop :=
  match q.station.batcher.stage with
  | .collecting => q.Whole q.station.batcher.spool ∧ q.station.batcher.next = q.station.handed.length
  | .flushing batch _ =>
    q.Whole batch.events ∧ q.station.batcher.next = q.station.handed.length + 1 ∧
      ∃ before, q.said = before ++ [.flushing q.station.handed.length batch.size]
  | .finished => q.Settled

variable {settings : BatcherSettings} {now : Instant} {input : Queue Event} {output : Queue Batch}
  {q q' : Overheard} {m : Move} {ms : List Move}

theorem accounted_start : (start settings now input output).Accounted :=
  ⟨⟨rfl, rfl, List.not_mem_nil⟩, rfl⟩

/-- A turn at the queues: the batcher is answered, and what it says and does is its reaction. -/
theorem exists_of_turn (h : q.move? .turn = some q') :
    ∃ (a : BatcherAnswer) (input : Queue Event) (output : Queue Batch),
      q.station.batcher.poll? q.station.called q.station.now q.station.input q.station.output
        = some (a, input, output) ∧
      q'.said = q.said ++ (q.station.batcher.answer q.station.now a).1 ∧
      q'.station.batcher = (q.station.batcher.answer q.station.now a).2 ∧
      q'.station.called = q.station.called ∧
      q'.station.received = q.station.received ++ a.event?.toList ∧
      q'.station.handed = q.station.handed
        ++ (q.station.batcher.handsOn? q.station.called q.station.output).toList := by
  obtain ⟨p, hp, rfl⟩ := Option.map_eq_some_iff.1 h
  simp only [Station.move?, Station.turn?, Option.map_eq_some_iff] at hp
  obtain ⟨⟨a, input, output⟩, hpoll, rfl⟩ := hp
  exact ⟨a, input, output, hpoll, by simp only [notices, hpoll, Option.elim_some], rfl, rfl, rfl, rfl⟩

/-- What has come and what was said, if nothing more was handed on and nothing reported as lost. -/
theorem Whole.more {held es : List Event} {notices : List BatcherNotice} (h : q.Whole held)
    (hreceived : q'.station.received = q.station.received ++ es)
    (hhanded : q'.station.handed = q.station.handed) (hsaid : q'.said = q.said ++ notices)
    (hnothing : reportedLost notices = 0) (hquiet : .cancelledWaiting ∉ notices) :
    q'.Whole (held ++ es) where
  received := by rw [hreceived, h.received, hhanded, List.append_assoc]
  reported := by rw [hsaid, reportedLost_append, h.reported, hnothing]
  quiet := by
    rw [hsaid, List.mem_append, not_or]
    exact ⟨h.quiet, hquiet⟩

/-- A turn that makes a batch of all that waits, after some notices that report no loss. -/
theorem accounted_flush {b : Batcher} {es : List Event} {notices : List BatcherNotice}
    {after : AfterFlush} (h : q.Whole q.station.batcher.spool)
    (hnext : b.next = q.station.handed.length) (hspool : b.spool = q.station.batcher.spool ++ es)
    (hreceived : q'.station.received = q.station.received ++ es)
    (hhanded : q'.station.handed = q.station.handed)
    (hsaid : q'.said = q.said ++ (b.flush notices after).1)
    (hb : q'.station.batcher = (b.flush notices after).2) (hnothing : reportedLost notices = 0)
    (hquiet : .cancelledWaiting ∉ notices) : q'.Accounted := by
  simp only [Batcher.flush] at hsaid hb
  simp only [Accounted, hb, hhanded]
  refine ⟨hspool ▸ h.more hreceived hhanded hsaid ?_ ?_, by rw [hnext], q.said ++ notices, ?_⟩
  · simp [hnothing, BatcherNotice.lost]
  · simpa using hquiet
  · rw [hsaid, hnext, List.append_assoc]
    rfl

/-- A turn in which the batcher ends and says how many events it loses. -/
theorem accounted_finish {b : Batcher} {held lost : List Event} {notices : List BatcherNotice}
    (h : q.Whole held)
    (hreceived : q'.station.received = q'.station.handed.flatMap Batch.events ++ lost)
    (hsaid : q'.said = q.said ++ (b.finish notices).1)
    (hb : q'.station.batcher = (b.finish notices).2) (hcount : reportedLost notices = lost.length)
    (hquiet : .cancelledWaiting ∉ notices) : q'.Accounted := by
  simp only [Batcher.finish] at hsaid hb
  simp only [Accounted, hb]
  refine .reported lost hreceived ?_ ?_
  · simp [hsaid, h.reported, hcount, BatcherNotice.lost]
  · simp [hsaid, h.quiet, hquiet]

/-- The turn of a batcher that collects. -/
theorem accounted_collecting (hq : q.Accounted) (hs : q.station.batcher.stage = .collecting)
    (h : q.move? .turn = some q') : q'.Accounted := by
  obtain ⟨a, input, output, -, hsaid, hb, -, hreceived, hhanded⟩ := exists_of_turn h
  have hnone : q.station.batcher.handsOn? q.station.called q.station.output = none := by
    simp only [Batcher.handsOn?, Batcher.want, hs]
  rw [hnone, Option.toList_none, List.append_nil] at hhanded
  simp only [Accounted, hs] at hq
  obtain ⟨hwhole, hnext⟩ := hq
  -- what a batcher that ends here loses is its spool
  have hspool (hnothing : a.event? = none) :
      q'.station.received = q'.station.handed.flatMap Batch.events ++ q.station.batcher.spool := by
    rw [hreceived, hnothing, hhanded, Option.toList_none, List.append_nil, hwhole.received]
  cases a with
  | event e =>
    simp only [Batcher.answer, hs, Batcher.takeIn, decide_eq_true_eq] at hsaid hb
    split at hsaid
    next hfull =>
      rw [if_pos hfull] at hb
      refine accounted_flush hwhole (by exact hnext) rfl hreceived hhanded hsaid hb ?_ ?_
      all_goals split <;> simp [BatcherNotice.lost]
    next hroom =>
      rw [if_neg hroom] at hb
      simp only [Accounted, hb, hhanded]
      exact ⟨hwhole.more hreceived hhanded hsaid rfl List.not_mem_nil, hnext⟩
  | inputClosed =>
    simp only [Batcher.answer, hs] at hsaid hb
    split at hsaid
    next hempty =>
      rw [if_pos hempty] at hb
      refine accounted_finish hwhole (hspool rfl) hsaid hb ?_ (by simp)
      rw [List.isEmpty_iff.1 hempty]
      rfl
    next hsome =>
      rw [if_neg hsome] at hb
      exact accounted_flush hwhole hnext (List.append_nil _).symm hreceived hhanded hsaid hb rfl (by simp)
  | due =>
    simp only [Batcher.answer, hs] at hsaid hb
    exact accounted_flush hwhole hnext (List.append_nil _).symm hreceived hhanded hsaid hb rfl (by simp)
  | cancelled =>
    simp only [Batcher.answer, hs] at hsaid hb
    refine accounted_finish hwhole (hspool rfl) hsaid hb ?_ ?_
    · split
      next hempty => rw [List.isEmpty_iff.1 hempty]; rfl
      next => rfl
    · split <;> simp
  | handed =>
    -- this was not asked for, and changes nothing
    simp only [Batcher.answer, hs] at hsaid hb
    simp only [Accounted, hb, hs, hhanded]
    have hmore := hwhole.more hreceived hhanded hsaid rfl List.not_mem_nil
    exact ⟨by simpa [BatcherAnswer.event?] using hmore, hnext⟩

/-- The turn of a batcher whose batch waits for room. -/
theorem accounted_flushing {batch : Batch} {after : AfterFlush} (hq : q.Accounted)
    (htidy : q.station.batcher.Tidy) (hs : q.station.batcher.stage = .flushing batch after)
    (h : q.move? .turn = some q') : q'.Accounted := by
  obtain ⟨a, input, output, hpoll, hsaid, hb, hc, hreceived, hhanded⟩ := exists_of_turn h
  simp only [Accounted, hs] at hq
  obtain ⟨hwhole, hnext, before, hbefore⟩ := hq
  simp only [Batcher.Tidy, hs] at htidy
  obtain ⟨hspool, hsize, -⟩ := htidy
  simp only [Batcher.poll?, Batcher.want, hs, Option.map_eq_some_iff] at hpoll
  obtain ⟨⟨t, left⟩, hhand, hpoll⟩ := hpoll
  obtain ⟨rfl, -, rfl⟩ := by simpa using hpoll
  simp only [Batcher.handsOn?, Batcher.want, hs, hhand] at hhanded
  simp only [Batcher.answer, hs] at hsaid hb
  replace hreceived : q'.station.received = q.station.handed.flatMap Batch.events ++ batch.events := by
    rw [hreceived, hwhole.received]
    exact List.append_nil _
  cases Queue.admits_of_hand? hhand with
  | accepted =>
    have hall : q'.station.received = q'.station.handed.flatMap Batch.events ++ [] := by
      rw [hreceived, hhanded, List.flatMap_append, List.append_nil]
      simp
    cases after with
    | resume =>
      simp only [Batcher.answerHanding, List.append_nil] at hsaid hb
      simp only [Accounted, hb, hspool]
      refine ⟨⟨hall, hsaid ▸ hwhole.reported, hsaid ▸ hwhole.quiet⟩, ?_⟩
      rw [hhanded, List.length_append, hnext]
      rfl
    | stop => exact accounted_finish hwhole hall hsaid hb rfl List.not_mem_nil
  | closed =>
    refine accounted_finish hwhole ?_ hsaid hb (Nat.add_zero _) (by simp)
    rw [hreceived, hhanded]
    simp
  | cancelled hcalled =>
    -- nothing says how many events there are in the batch
    replace hhanded : q'.station.handed = q.station.handed := by simpa using hhanded
    simp only [Batcher.answerHanding, Batcher.finish] at hsaid hb
    simp only [Accounted, hb]
    refine .silent batch before (hhanded ▸ hreceived) hsize (hc.trans hcalled) ?_ ?_
    · simp [hsaid, hwhole.reported, BatcherNotice.lost]
    · rw [hsaid, hbefore, hhanded, List.append_assoc]
      rfl

/-- What others do at the queues, and what time does, keeps the account. -/
theorem accounted_outer (hq : q.Accounted) (hkept : q.station.Outer q'.station)
    (hsaid : q'.said = q.said) : q'.Accounted := by
  have hwhole {held : List Event} (h : q.Whole held) : q'.Whole held :=
    ⟨by rw [hkept.received, hkept.handed, h.received], hsaid ▸ h.reported, hsaid ▸ h.quiet⟩
  cases hs : q.station.batcher.stage with
  | collecting =>
    simp only [Accounted, hkept.batcher, hkept.handed, hs] at hq ⊢
    exact ⟨hwhole hq.1, hq.2⟩
  | flushing batch after =>
    simp only [Accounted, hkept.batcher, hkept.handed, hsaid, hs] at hq ⊢
    exact ⟨hwhole hq.1, hq.2⟩
  | finished =>
    simp only [Accounted, hkept.batcher, hs] at hq ⊢
    cases hq with
    | reported lost hreceived hcount hquiet =>
      exact .reported lost (by rw [hkept.received, hkept.handed, hreceived]) (hsaid ▸ hcount)
        (hsaid ▸ hquiet)
    | silent batch before hreceived hsize hcalled hcount hbefore =>
      refine .silent batch before (by rw [hkept.received, hkept.handed, hreceived]) hsize ?_
        (hsaid ▸ hcount) (by rw [hsaid, hkept.handed, hbefore])
      cases hc : q'.station.called with
      | true => rfl
      | false => exact absurd (hkept.called hc) (by simp [hcalled])

/-- Every step keeps the account, and the batcher tidy. -/
theorem accounted_move? (hq : q.Accounted) (htidy : q.station.batcher.Tidy) (h : q.move? m = some q') :
    q'.Accounted ∧ q'.station.batcher.Tidy := by
  obtain ⟨p, hp, rfl⟩ := Option.map_eq_some_iff.1 h
  by_cases hturn : m = .turn
  · subst hturn
    obtain ⟨taken, handed, b, input, output, ht, -, hp⟩ := Station.exists_of_turn hp
    refine ⟨?_, by rw [hp]; exact Batcher.tidy_turn ht htidy⟩
    cases hs : q.station.batcher.stage with
    | collecting => exact accounted_collecting hq hs h
    | flushing batch after => exact accounted_flushing hq htidy hs h
    | finished => exact absurd (Batcher.isFinished_of_turn ht) (by simp [Batcher.isFinished, hs])
  · have hkept := Station.outer_move? hp hturn
    have hsaid : q.said ++ notices q.station m = q.said := by
      cases m with
      | turn => exact absurd rfl hturn
      | addProducer | dropProducer | arrive | take | leave | callOff | pass => exact List.append_nil _
    exact ⟨accounted_outer hq hkept hsaid, hkept.batcher ▸ htidy⟩

/-- A batcher that has ended has settled its account. -/
theorem settled_of_isFinished (h : (start settings now input output).run? ms = some q)
    (hend : q.station.batcher.isFinished = true) : q.Settled := by
  have hkept : q.Accounted ∧ q.station.batcher.Tidy :=
    runSteps_induction (P := fun q => q.Accounted ∧ q.station.batcher.Tidy)
      (fun _ _ _ hq hm => accounted_move? hq.1 hq.2 hm) h ⟨accounted_start, Batcher.tidy_start settings now⟩
  have hq := hkept.1
  cases hs : q.station.batcher.stage with
  | collecting | flushing => exact absurd hend (by simp [Batcher.isFinished, hs])
  | finished => simpa only [Accounted, hs] using hq

/-- **A batcher that has ended has reported what it lost, unless it was called off while a batch waited for
room.**  Whatever came in and whatever room there was at whatever moments, and whenever all was called off
or the batches had no taker left: the events that were received are those that were handed on and then
those that are lost.  If no batch was waiting when all was called off, the number of the lost ones is what
the batcher reported.  Otherwise nothing is reported and one whole batch is lost, the one after those that
were handed on; all that was said of it is that it was going to be handed on. -/
theorem reports_losses (h : (start settings now input output).run? ms = some q)
    (hend : q.station.batcher.isFinished = true) :
    (q.station.received.length = (q.station.handed.map Batch.size).sum + reportedLost q.said ↔
      .cancelledWaiting ∉ q.said) ∧
    ∃ lost, q.station.received = q.station.handed.flatMap Batch.events ++ lost ∧
      (.cancelledWaiting ∉ q.said → reportedLost q.said = lost.length) ∧
      (.cancelledWaiting ∈ q.said → q.station.called = true ∧ lost ≠ [] ∧ reportedLost q.said = 0 ∧
        ∃ before, q.said = before ++
          [.flushing q.station.handed.length lost.length, .cancelledWaiting, .stopped]) := by
  have hcount {lost : List Event}
      (hreceived : q.station.received = q.station.handed.flatMap Batch.events ++ lost) :
      q.station.received.length = (q.station.handed.map Batch.size).sum + lost.length := by
    rw [hreceived, List.length_append, List.length_flatMap]
    rfl
  cases settled_of_isFinished h hend with
  | reported lost hreceived hreported hquiet =>
    refine ⟨iff_of_true ?_ hquiet, lost, hreceived, fun _ => hreported, fun hsaid => absurd hsaid hquiet⟩
    rw [hcount hreceived, hreported]
  | silent batch before hreceived hsize hcalled hreported hsaid =>
    have hmem : .cancelledWaiting ∈ q.said := by simp [hsaid]
    refine ⟨iff_of_false ?_ (not_not_intro hmem), batch.events, hreceived, (absurd hmem ·), fun _ => ?_⟩
    · rw [hcount hreceived, hreported]
      exact Nat.ne_of_gt (Nat.add_lt_add_left hsize _)
    · exact ⟨hcalled, List.length_pos_iff.1 hsize, hreported, before, hsaid⟩

open Station (line)

/-- Two events for a batch; when all is called off, one batch has been handed on and one event waits. -/
def oneLeft : List Move :=
  [.arrive (line 0), .arrive (line 1), .arrive (line 2), .turn, .turn, .turn, .turn, .callOff, .turn]

theorem reports_losses_oneLeft :
    ∃ q, (start { size := 2 } 0 { capacity := 3 } { capacity := 1 }).run? oneLeft = some q ∧
      q.station.batcher.isFinished = true ∧ q.station.received.length = 3 ∧
      (q.station.handed.map Batch.size).sum = 2 ∧ .unflushed 1 ∈ q.said ∧
      3 = 2 + reportedLost q.said := by
  obtain ⟨q, hq⟩ : ∃ q, (start { size := 2 } 0 { capacity := 3 } { capacity := 1 }).run? oneLeft = some q :=
    Option.isSome_iff_exists.1 rfl
  have hlast : ((start { size := 2 } 0 { capacity := 3 } { capacity := 1 }).run? oneLeft).map
        (fun q => (q.station.batcher.isFinished, q.station.received.length,
          (q.station.handed.map Batch.size).sum, q.said))
      = some (true, 3, 2, [.flushing 0 2, .unflushed 1, .stopped]) := rfl
  rw [hq] at hlast
  obtain ⟨hend, hreceived, hhanded, hsaid⟩ := by simpa using hlast
  have hbalance := (reports_losses hq hend).1.2 (by simp [hsaid])
  exact ⟨q, hq, hend, hreceived, hhanded, by simp [hsaid], hreceived ▸ hhanded ▸ hbalance⟩

/-- One event for a batch, and room for one batch: all is called off while the second one waits. -/
def secondWaits : List Move := [.arrive (line 0), .arrive (line 1), .turn, .turn, .turn, .callOff, .turn]

/-- Two events are received, one is handed on, and the other one is lost without a report. -/
theorem waiting_batch_unreported :
    ∃ q, (start { size := 1 } 0 { capacity := 2 } { capacity := 1 }).run? secondWaits = some q ∧
      q.station.batcher.isFinished = true ∧
      q.said = [.flushing 0 1, .flushing 1 1, .cancelledWaiting, .stopped] ∧
      q.station.received.length ≠ (q.station.handed.map Batch.size).sum + reportedLost q.said := by
  refine ⟨_, rfl, rfl, rfl, ?_⟩
  decide

end Overheard

end LogRelay
