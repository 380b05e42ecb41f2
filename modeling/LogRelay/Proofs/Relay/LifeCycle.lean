import LogRelay.Proofs.Relay.Outcome
import Mathlib.Data.List.Chain

/-!
# The life of a relay

A relay is started, runs, is called off any number of times or not at all, and stops for good.  Its
status is written in three places: when it says that it runs, when it is called off, and when the
supervisor has seen the last stage end.  What is written is announced in the same step.

* `Status.Next`: what may be written after a status;
* `Relay.StatusTurn`, `statusTurn_move?`: all that a step can do to the status;
* `Relay.Aged`, `aged_move?`: how the status, the supervisor and the stages hang together;
* `Watched.statuses`, `statuses_isChain`: the status throughout a run;
* `Watched.Hears`, `hears_run?`: what whoever listens from some moment on gets to hear;
* `Watched.life_cycle`: the life of a relay, and what the calls after its end come to.
-/

namespace LogRelay

/-- What may be written after a status.  Nothing is written after the relay has stopped. -/
inductive Status.Next : Status → Status → Prop where
  | run : Next .starting .running
  | callOff : Next .running .stopping
  | again : Next .stopping .stopping
  | finish : Next .running .stopped
  | finishCalled : Next .stopping .stopped

theorem Status.Next.ne_starting {s t : Status} (h : s.Next t) : t ≠ .starting := by
  cases h <;> simp

namespace Relay

variable {r r' : Relay} {m : Move} {notices : List RelayNotice}

/-! ### One step -/

/-- What a step does to the status, and what is announced with it. -/
inductive StatusTurn (r : Relay) : Move → Relay → Prop where
  | kept {m : Move} {r' : Relay} (hs : r'.status = r.status) (ha : r'.announced = r.announced) :
      StatusTurn r m r'
  | run {r' : Relay} (h : r.status = .starting) (hs : r'.status = .running)
      (ha : r'.announced = r.announced ++ [.running]) : StatusTurn r .announce r'
  | callOff {r' : Relay} (h : r.status = .running ∨ r.status = .stopping) (hs : r'.status = .stopping)
      (ha : r'.announced = r.announced ++ [.stopping]) (hc : r'.called = true) : StatusTurn r .stop r'
  | finish {r' : Relay} (h : r.status = .running ∨ r.status = .stopping) (hs : r'.status = .stopped)
      (ha : r'.announced = r.announced ++ [.stopped]) (hended : ∀ s, r'.isAtWork s = false) :
      StatusTurn r .supervise r'

/-- The supervisor begins when the relay says that it runs, and is done when the relay has stopped. -/
structure Aged (r : Relay) : Prop where
  supervised : Watched.Supervised r
  starting : r.status = .starting ↔ r.supervisor = .idle
  stopped : r.status = .stopped → ∃ p, r.supervisor = .ended p
  called : r.status = .stopping → r.called = true

@[simp] theorem setBatcher_announced (r : Relay) (b : Batcher) :
    (r.setBatcher b).announced = r.announced ∧ (r.setBatcher b).called = r.called := by
  rw [setBatcher]
  split <;> exact ⟨rfl, rfl⟩

theorem setCourier_announced (r : Relay) (c : Courier) :
    (r.setCourier c).announced = r.announced ∧ (r.called = true → (r.setCourier c).called = true) := by
  rw [setCourier]
  split
  · exact ⟨rfl, id⟩
  · exact ⟨rfl, id⟩
  · exact ⟨rfl, fun _ => rfl⟩

/-- A step that leaves the status as it is announces nothing, and what was called off stays so. -/
theorem announced_move? (hk : m.keepsStatus = true) (hm : r.move? m = some (notices, r')) :
    r'.announced = r.announced ∧ (r.called = true → r'.called = true) := by
  cases m with
  | announce | stop | supervise => exact absurd hk (by simp [Move.keepsStatus])
  | stage s =>
    cases s with
    | batcher =>
      obtain ⟨b, b', input, output, -, -, rfl⟩ := move?_batcher hm
      simp
    | courier =>
      obtain ⟨c, c', input, output, -, -, rfl⟩ := move?_courier hm
      exact setCourier_announced _ _
    | ledger =>
      obtain ⟨l, -, -, ⟨b, rest, -, -, -, rfl⟩ | ⟨-, -, rfl⟩⟩ := move?_ledger hm
      · exact ⟨rfl, id⟩
      · exact ⟨rfl, id⟩
  | nonce bs =>
    obtain ⟨c, l, b, -, -, -, rfl⟩ := move?_nonce hm
    exact setCourier_announced _ _
  | link a =>
    obtain ⟨c, want, -, -, -, -, rfl⟩ := move?_link hm
    exact setCourier_announced _ _
  | die s reason =>
    rcases move?_die hm with ⟨-, rfl⟩ | ⟨-, rfl⟩ | ⟨-, rfl⟩
    · exact ⟨rfl, id⟩
    · exact ⟨rfl, id⟩
    · exact ⟨rfl, id⟩
  | accept e =>
    obtain ⟨-, -, -, rfl⟩ := move?_accept hm
    exact ⟨rfl, id⟩
  | addProducer =>
    obtain ⟨-, rfl⟩ := move?_addProducer hm
    exact ⟨rfl, id⟩
  | dropProducer =>
    obtain ⟨-, rfl⟩ := move?_dropProducer hm
    exact ⟨rfl, id⟩
  | call =>
    obtain rfl := move?_call hm
    exact ⟨rfl, id⟩
  | pass d =>
    obtain rfl := move?_pass hm
    exact ⟨rfl, id⟩

/-- As long as the supervisor goes on, the relay runs or was called off. -/
theorem Aged.underway (h : r.Aged) (hm : r.move? .supervise = some (notices, r')) :
    r.status = .running ∨ r.status = .stopping := by
  simp only [move?, superviseMove?] at hm
  cases hs : r.status with
  | starting =>
    rw [h.starting.1 hs] at hm
    exact absurd hm (by simp)
  | running => exact .inl rfl
  | stopping => exact .inr rfl
  | stopped =>
    obtain ⟨p, hp⟩ := h.stopped hs
    rw [hp] at hm
    exact absurd hm (by simp)

/-- A relay that is being started cannot be called off. -/
theorem started_of_stop (hm : r.move? .stop = some (notices, r')) : r.status ≠ .starting := by
  intro hs
  rw [move?, if_pos hs] at hm
  exact absurd hm (by simp)

/-- When the supervisor has seen the ledger end, it has seen the other stages end before. -/
theorem Aged.stages (h : r.Aged) {p : Except RelayFault Unit} (hs : r.supervisor = .awaitingLedger p)
    (hrun : r.ledger.isRunning = false) (s : StageName) : r.isAtWork s = false := by
  cases s with
  | batcher => exact h.supervised.batcher p (.inl hs)
  | courier => exact Watched.isRunning_of_published? (h.supervised.published p (.inr (.inl hs)))
  | ledger => exact hrun

/-- **Every step is one of the turns above.** -/
theorem statusTurn_move? (h : r.Aged) (hm : r.move? m = some (notices, r')) : StatusTurn r m r' := by
  cases m with
  | announce =>
    obtain ⟨hs, rfl⟩ := move?_announce hm
    exact .run hs rfl rfl
  | stop =>
    have hstarted := started_of_stop hm
    rcases move?_stop hm with rfl | ⟨hs, rfl⟩
    · exact .kept rfl rfl
    · refine .callOff ?_ rfl rfl rfl
      cases hstatus : r.status with
      | starting => exact absurd hstatus hstarted
      | running => exact .inl rfl
      | stopping => exact .inr rfl
      | stopped => exact absurd hstatus hs
  | supervise =>
    obtain ⟨p, ⟨-, rfl⟩ | ⟨-, -, rfl⟩ | ⟨hs, hrun, rfl⟩⟩ := move?_supervise hm
    · exact .kept rfl rfl
    · exact .kept rfl rfl
    · exact .finish (h.underway hm) rfl rfl (h.stages hs hrun)
  | addProducer | dropProducer | accept | stage | nonce | call | link | die | pass =>
    exact .kept (statusKept_move? rfl hm).2 (announced_move? rfl hm).1

/-- What is written may be written after the status that there was, and is announced. -/
theorem StatusTurn.next (h : StatusTurn r m r') :
    (r'.status = r.status ∧ r'.announced = r.announced) ∨
      (r.status.Next r'.status ∧ r'.announced = r.announced ++ [r'.status]) := by
  cases h with
  | kept hs ha => exact .inl ⟨hs, ha⟩
  | run h hs ha => exact .inr ⟨by rw [h, hs]; exact .run, by rw [hs, ha]⟩
  | callOff h hs ha hc =>
    refine .inr ⟨?_, by rw [hs, ha]⟩
    rcases h with h | h
    · rw [h, hs]; exact .callOff
    · rw [h, hs]; exact .again
  | finish h hs ha hended =>
    refine .inr ⟨?_, by rw [hs, ha]⟩
    rcases h with h | h
    · rw [h, hs]; exact .finish
    · rw [h, hs]; exact .finishCalled

/-- Every step keeps the status, the supervisor and the stages together. -/
theorem aged_move? (h : r.Aged) (hm : r.move? m = some (notices, r')) : r'.Aged := by
  have hsupervised := Watched.supervised_move? h.supervised hm
  cases m with
  | announce =>
    obtain ⟨-, rfl⟩ := move?_announce hm
    exact ⟨hsupervised, by simp, by simp, by simp⟩
  | stop =>
    have hstarted := started_of_stop hm
    rcases move?_stop hm with rfl | ⟨-, rfl⟩
    · exact h
    · refine ⟨hsupervised, ?_, by simp, fun _ => rfl⟩
      simpa using fun hidle => hstarted (h.starting.2 hidle)
  | supervise =>
    have hunderway := h.underway hm
    have hstatus : r.status ≠ .starting ∧ r.status ≠ .stopped := by
      rcases hunderway with hs | hs <;> simp [hs]
    obtain ⟨p, ⟨-, rfl⟩ | ⟨-, -, rfl⟩ | ⟨-, -, rfl⟩⟩ := move?_supervise hm
    · exact ⟨hsupervised, by simp [hstatus.1], fun hs => absurd hs hstatus.2, h.called⟩
    · exact ⟨hsupervised, by simp [hstatus.1], fun hs => absurd hs hstatus.2, h.called⟩
    · exact ⟨hsupervised, by simp, fun _ => ⟨p, rfl⟩, by simp⟩
  | addProducer | dropProducer | accept | stage | nonce | call | link | die | pass =>
    obtain ⟨hsupervisor, hstatus⟩ := statusKept_move? rfl hm
    refine ⟨hsupervised, ?_, ?_, ?_⟩
    · rw [hsupervisor, hstatus]
      exact h.starting
    · rw [hsupervisor, hstatus]
      exact h.stopped
    · rw [hstatus]
      exact fun hs => (announced_move? rfl hm).2 (h.called hs)

end Relay

/-! ### A whole run -/

namespace Watched

variable {capacities : Capacities} {settings : BatcherSettings} {keys : Keys} {l : Link} {now : Instant}
  {ms ms' : List Move} {w w' : Watched}

/-- The status at the beginning of a run and after each of its steps. -/
def statuses (w : Watched) : List Move → List Status
  | [] => [w.relay.status]
  | m :: ms => w.relay.status :: (w.move? m).elim [] fun w => w.statuses ms

theorem aged_start (capacities : Capacities) (settings : BatcherSettings) (keys : Keys) (l : Link)
    (now : Instant) : (start capacities settings keys l now).relay.Aged :=
  ⟨⟨by simp [start, Relay.start], by simp [start, Relay.start], by simp [start, Relay.start]⟩,
    by simp [start, Relay.start], by simp [start, Relay.start], by simp [start, Relay.start]⟩

theorem aged_run? (h : w.run? ms = some w') (hw : w.relay.Aged) : w'.relay.Aged :=
  relay_induction Relay.aged_move? h hw

/-- Throughout a run a status stays, or is followed by one that may be written after it. -/
theorem statuses_isChain (hw : w.relay.Aged) (h : w.run? ms = some w') :
    (w.statuses ms).IsChain (fun s t => t = s ∨ s.Next t) := by
  induction ms generalizing w with
  | nil => exact List.isChain_singleton _
  | cons m ms ih =>
    obtain ⟨w₁, hm, hrun⟩ := Option.bind_eq_some_iff.1 h
    obtain ⟨notices, hr, -⟩ := exists_of_move? hm
    have hrest := ih (Relay.aged_move? hw hr) hrun
    have hstep : w₁.relay.status = w.relay.status ∨ w.relay.status.Next w₁.relay.status :=
      (Relay.statusTurn_move? hw hr).next.imp And.left And.left
    rw [statuses, hm, Option.elim_some]
    cases ms with
    | nil => exact List.isChain_pair.2 hstep
    | cons m' ms => exact List.isChain_cons_cons.2 ⟨hstep, hrest⟩

/-! ### Whoever listens -/

/-- What can be heard of a relay that has said that it runs: that it was called off, any number of times,
and at last that it has stopped. -/
def Hears (heard : List Status) (status : Status) : Prop :=
  ∃ n, heard = List.replicate n .stopping ∨
    heard = List.replicate n .stopping ++ [.stopped] ∧ status = .stopped

/-- One more step is heard, or nothing is. -/
theorem hears_concat {heard : List Status} {s t : Status} (h : Hears heard s) (hs : s ≠ .starting)
    (hn : s.Next t) : Hears (heard ++ [t]) t := by
  obtain ⟨n, rfl | ⟨rfl, rfl⟩⟩ := h
  · cases hn with
    | run => exact absurd rfl hs
    | callOff | again => exact ⟨n + 1, .inl List.replicate_succ'.symm⟩
    | finish | finishCalled => exact ⟨n, .inr ⟨rfl, rfl⟩⟩
  · exact nomatch hn

theorem hears_run? (hw : w.relay.Aged) (hs : w.relay.status ≠ .starting) (h : w.run? ms = some w') :
    ∃ heard, w'.relay.announced = w.relay.announced ++ heard ∧ Hears heard w'.relay.status := by
  let P (w₁ : Watched) : Prop := w₁.relay.Aged ∧ w₁.relay.status ≠ .starting ∧
    ∃ heard, w₁.relay.announced = w.relay.announced ++ heard ∧ Hears heard w₁.relay.status
  have hkept : P w' := by
    refine runSteps_induction (P := P) ?_ h ⟨hw, hs, [], (List.append_nil _).symm, 0, .inl rfl⟩
    rintro m w₁ w₂ ⟨haged, hstarted, heard, ha, hheard⟩ hm
    obtain ⟨notices, hr, -⟩ := exists_of_move? hm
    refine ⟨Relay.aged_move? haged hr, ?_⟩
    rcases (Relay.statusTurn_move? haged hr).next with ⟨hsame, hann⟩ | ⟨hnext, hann⟩
    · rw [hsame, hann]
      exact ⟨hstarted, heard, ha, hheard⟩
    · refine ⟨hnext.ne_starting, heard ++ [w₂.relay.status], ?_, hears_concat hheard hstarted hnext⟩
      rw [hann, ha, List.append_assoc]
  exact hkept.2.2

/-! ### The life of a relay -/

/-- Calling off a relay that has said that it runs is always possible.  Where it has stopped nothing
changes. -/
theorem exists_stop (hs : w.relay.status ≠ .starting) :
    ∃ w₁, w.move? .stop = some w₁ ∧ (w.relay.status = .stopped → w₁ = w) ∧
      (w.relay.status ≠ .stopped → w₁.relay.status = .stopping ∧ w₁.relay.called = true ∧
        w₁.relay.announced = w.relay.announced ++ [.stopping]) := by
  have hmove : w.move? .stop = some ⟨w.relay.stop, w.passage ++ {}⟩ := by
    simp only [move?, Relay.move?, if_neg hs]
    rfl
  refine ⟨_, hmove, fun hstopped => ?_, fun hgoing => ?_⟩
  · rw [Relay.stop, if_pos hstopped, Passage.append_empty]
  · rw [Relay.stop, if_neg hgoing]
    exact ⟨rfl, rfl, rfl⟩

/-- **The life of a relay**, in whatever order its stages end and whoever calls it off whenever.  Its status
is first that it is being started, then that it runs, then, any number of times, that it was called off, and
then for good that it has stopped.  It is written and announced in one step, which also calls off the stages
if it says that the relay was called off, and which comes after the end of all stages if it says that the
relay has stopped.  To call off a relay that has stopped does nothing.  Whoever listens from some moment on
hears that it was called off, any number of times, then at most once that it has stopped, and nothing after
that. -/
theorem life_cycle (h : (start capacities settings keys l now).run? ms = some w) :
    ((start capacities settings keys l now).statuses ms).head? = some .starting ∧
      ((start capacities settings keys l now).statuses ms).IsChain (fun s t => t = s ∨ s.Next t) ∧
      (w.relay.status = .stopped → ∀ s, w.relay.isAtWork s = false) ∧
      (w.relay.status = .stopping → w.relay.called = true) ∧
      (∀ m w₁, w.move? m = some w₁ → w.relay.StatusTurn m w₁.relay) ∧
      (w.relay.status ≠ .starting → ∃ w₁, w.move? .stop = some w₁ ∧
        (w.relay.status = .stopped → w₁ = w) ∧
        (w.relay.status ≠ .stopped → w₁.relay.status = .stopping ∧ w₁.relay.called = true ∧
          w₁.relay.announced = w.relay.announced ++ [.stopping])) ∧
      (w.relay.status ≠ .starting → ∀ ms' w', w.run? ms' = some w' →
        ∃ n, w'.relay.announced = w.relay.announced ++ List.replicate n .stopping ∨
          w'.relay.announced = w.relay.announced ++ (List.replicate n .stopping ++ [.stopped])) := by
  have hstart := aged_start capacities settings keys l now
  have haged := aged_run? h hstart
  refine ⟨?_, statuses_isChain hstart h, ?_, haged.called, ?_, exists_stop, ?_⟩
  · cases ms <;> rfl
  · intro hstopped
    obtain ⟨p, hp⟩ := haged.stopped hstopped
    obtain ⟨hpublished, hbatcher, hledger⟩ := haged.supervised
    intro s
    cases s with
    | batcher => exact hbatcher p (.inr hp)
    | courier => exact isRunning_of_published? (hpublished p (.inr (.inr hp)))
    | ledger => exact (hledger p hp).1
  · intro m w₁ hm
    obtain ⟨notices, hr, -⟩ := exists_of_move? hm
    exact Relay.statusTurn_move? haged hr
  · intro hs ms' w' hrun
    obtain ⟨heard, ha, n, rfl | ⟨rfl, -⟩⟩ := hears_run? haged hs hrun
    · exact ⟨n, .inl ha⟩
    · exact ⟨n, .inr ha⟩

/-- A relay that is called off twice, ends, and is called off once more. -/
def calledOffLate : List Move :=
  [.announce, .stop, .stage .ledger, .stop, .stage .courier, .die .batcher "lost", .supervise, .supervise,
    .supervise, .stop]

theorem life_cycle_calledOffLate :
    ∃ w, lineByLine.run? calledOffLate = some w ∧
      lineByLine.statuses calledOffLate = [.starting, .running, .stopping, .stopping, .stopping, .stopping,
        .stopping, .stopping, .stopping, .stopped, .stopped] ∧
      (lineByLine.statuses calledOffLate).IsChain (fun s t => t = s ∨ s.Next t) ∧
      w.relay.status = .stopped ∧ (∀ s, w.relay.isAtWork s = false) ∧ w.move? .stop = some w ∧
      w.relay.announced = [.running, .stopping, .stopping, .stopped] := by
  obtain ⟨w, hw⟩ : ∃ w, lineByLine.run? calledOffLate = some w := Option.isSome_iff_exists.1 rfl
  have hstatus : (lineByLine.run? calledOffLate).map (fun w => w.relay.status) = some .stopped := rfl
  have hannounced : (lineByLine.run? calledOffLate).map (fun w => w.relay.announced)
      = some [.running, .stopping, .stopping, .stopped] := rfl
  rw [hw] at hstatus hannounced
  have hstatus : w.relay.status = .stopped := Option.some.inj hstatus
  obtain ⟨-, hchain, hended, -, -, hstop, -⟩ := life_cycle hw
  obtain ⟨w₁, hmove, hsame, -⟩ := hstop (by simp [hstatus])
  rw [hsame hstatus] at hmove
  exact ⟨w, hw, rfl, hchain, hstatus, hended hstatus, hmove, Option.some.inj hannounced⟩

end Watched

end LogRelay
