import LogRelay.Proofs.Relay.Drain
import LogRelay.Proofs.Relay.Stages

/-!
# How a relay says that it has ended

The supervisor waits for all three stages, but hands on only what the courier has come to.  A courier
that dies makes the relay fail, and so does one that ends with a fault.  The death of the batcher or of
the ledger leaves no trace in the result: the other stages see closed queues and end in good order.

* `Relay.death?_move?`, `Watched.death?_run?`: a stage is dead exactly when a step killed it;
* `result_of_courier`: what the result of a relay tells, and what it does not;
* `unnoticed_deaths`: two runs with a good end, in which a stage died and events were lost.
-/

namespace LogRelay

namespace Relay

variable {r r' : Relay} {notices : List RelayNotice} {s : StageName} {reason : String}

/-! ### Deaths -/

theorem death?_setBatcher {b : Batcher} (hb : r.batcher = .running b) (b' : Batcher) (s : StageName) :
    (r.setBatcher b').death? s = r.death? s := by
  cases s with
  | batcher =>
    rw [setBatcher]
    split
    · simp only [death?, releaseBatcher, hb, Worker.death?]
    · simp only [death?, hb, Worker.death?]
  | courier => simp only [death?, setBatcher_frame]
  | ledger => simp only [death?, setBatcher_frame]

theorem death?_setCourier {c : Courier} (hc : r.courier = .running c) (c' : Courier) (s : StageName) :
    (r.setCourier c').death? s = r.death? s := by
  cases s with
  | courier =>
    rcases r.setCourier_cases c' with ⟨-, heq⟩ | ⟨-, heq⟩ | ⟨f, -, heq⟩
    · simp only [heq, death?, hc, Worker.death?]
    · simp only [heq, death?, releaseCourier, hc, Worker.death?]
    · simp only [heq, death?, releaseCourier, hc, Worker.death?]
  | batcher => simp only [death?, setCourier_frame]
  | ledger => simp only [death?, setCourier_frame]

theorem death?_of_isAtWork (h : r.isAtWork s = true) : r.death? s = none := by
  cases s with
  | batcher =>
    obtain ⟨b, hb⟩ := Worker.of_isRunning h
    simp only [death?, hb, Worker.death?]
  | courier =>
    obtain ⟨c, hc⟩ := Worker.of_isRunning h
    simp only [death?, hc, Worker.death?]
  | ledger =>
    obtain ⟨l, hl⟩ := Worker.of_isRunning h
    simp only [death?, hl, Worker.death?]

/-- A stage at work dies, and no other does. -/
theorem death?_die (h : r.move? (.die s reason) = some (notices, r')) :
    r.isAtWork s = true ∧ ∀ t, r'.death? t = if t = s then some reason else r.death? t := by
  rw [move?] at h
  cases s with
  | batcher =>
    simp only [dieMove?] at h
    split at h
    next hrun =>
      obtain rfl := (Prod.mk.inj (Option.some.inj h)).2
      exact ⟨hrun, fun t => by cases t <;> rfl⟩
    next => exact absurd h (by simp)
  | courier =>
    simp only [dieMove?] at h
    split at h
    next hrun =>
      obtain rfl := (Prod.mk.inj (Option.some.inj h)).2
      exact ⟨hrun, fun t => by cases t <;> rfl⟩
    next => exact absurd h (by simp)
  | ledger =>
    simp only [dieMove?] at h
    split at h
    next hrun =>
      obtain rfl := (Prod.mk.inj (Option.some.inj h)).2
      exact ⟨hrun, fun t => by cases t <;> rfl⟩
    next => exact absurd h (by simp)

/-- No other step kills a stage. -/
theorem death?_of_ne {m : Move} (h : r.move? m = some (notices, r')) (hm : ∀ s reason, m ≠ .die s reason)
    (s : StageName) : r'.death? s = r.death? s := by
  cases m with
  | die s' reason => exact absurd rfl (hm s' reason)
  | stage s' =>
    cases s' with
    | batcher =>
      obtain ⟨b, b', input, output, hb, -, rfl⟩ := move?_batcher h
      exact death?_setBatcher (r := { r with events := input, batches := output }) hb b' s
    | courier =>
      obtain ⟨c, c', input, output, hc, -, rfl⟩ := move?_courier h
      exact death?_setCourier (r := { r with batches := input, delivered := output }) hc c' s
    | ledger =>
      obtain ⟨l, hl, -, ⟨b, rest, -, -, -, rfl⟩ | ⟨-, -, rfl⟩⟩ := move?_ledger h
      · cases s with
        | ledger => simp only [death?, hl, Worker.death?]
        | batcher | courier => rfl
      · cases s with
        | ledger => simp only [death?, releaseLedger, hl, Worker.death?]
        | batcher | courier => rfl
  | nonce bs =>
    obtain ⟨c, l, b, hc, -, -, rfl⟩ := move?_nonce h
    exact death?_setCourier hc _ s
  | link a =>
    obtain ⟨c, want, hc, -, -, -, rfl⟩ := move?_link h
    exact death?_setCourier (r := { r with calling := false }) hc _ s
  | announce | addProducer | dropProducer | accept | call | stop | supervise | pass =>
    have hkept := stagesKept_move? rfl h
    cases s with
    | batcher => simp only [death?, hkept.batcher]
    | courier => simp only [death?, hkept.courier]
    | ledger => simp only [death?, hkept.ledger]

/-- **A stage is dead after a step exactly when it was dead before, or the step killed it.** -/
theorem death?_move? {m : Move} (h : r.move? m = some (notices, r')) :
    r'.death? s = some reason ↔ r.death? s = some reason ∨ m = .die s reason := by
  by_cases hm : ∃ t why, m = .die t why
  · obtain ⟨t, why, rfl⟩ := hm
    obtain ⟨hrun, hdie⟩ := death?_die h
    rw [hdie s]
    by_cases hs : s = t
    · subst hs
      rw [if_pos rfl, death?_of_isAtWork hrun]
      simp
    · rw [if_neg hs]
      constructor
      · exact .inl
      · rintro (hold | hdie)
        · exact hold
        · exact absurd (Move.die.inj hdie).1.symm hs
  · have hm (t : StageName) (why : String) : m ≠ .die t why := fun h => hm ⟨t, why, h⟩
    rw [death?_of_ne h hm s]
    constructor
    · exact .inl
    · rintro (hold | hdie)
      · exact hold
      · exact absurd hdie (hm s reason)

end Relay

namespace Watched

variable {capacities : Capacities} {settings : BatcherSettings} {keys : Keys} {l : Link} {now : Instant}
  {ms : List Move} {w w' : Watched} {s : StageName} {reason : String}

theorem death?_run? (h : w.run? ms = some w') :
    w'.relay.death? s = some reason ↔ w.relay.death? s = some reason ∨ .die s reason ∈ ms := by
  induction ms generalizing w with
  | nil =>
    obtain rfl := Option.some.inj h
    simp
  | cons m ms ih =>
    obtain ⟨w₁, hm, h⟩ := Option.bind_eq_some_iff.1 h
    obtain ⟨notices, hr, -⟩ := exists_of_move? hm
    rw [ih h, Relay.death?_move? hr, List.mem_cons, or_assoc, eq_comm (a := m)]

theorem death?_start (h : (start capacities settings keys l now).run? ms = some w) :
    w.relay.death? s = some reason ↔ .die s reason ∈ ms := by
  rw [death?_run? h]
  constructor
  · rintro (hold | hdie)
    · cases s <;> exact absurd hold (by simp [start, Relay.start, Relay.death?, Worker.death?])
    · exact hdie
  · exact .inr

/-! ### The result -/

theorem supervised_run? (h : (start capacities settings keys l now).run? ms = some w) :
    Supervised w.relay := by
  refine relay_induction supervised_move? h ?_
  exact ⟨by simp [start, Relay.start], by simp [start, Relay.start], by simp [start, Relay.start]⟩

theorem ended_of_result? {r : Relay} {result : Except RelayFault Unit} (h : r.result? = some result) :
    r.supervisor = .ended result := by
  rw [Relay.result?] at h
  cases hs : r.supervisor with
  | ended p => rw [hs] at h; rw [Option.some.inj h]
  | idle | awaitingCourier | awaitingBatcher | awaitingLedger => rw [hs] at h; exact absurd h (by simp)

/-- **What the result of a relay tells.**  There is one only when every stage has come to its end or
died.  It is good exactly when the courier has come to a good end, it is a courier's fault exactly when
the courier has ended with that, and it is a death exactly when the courier has died; whatever has become
of the other stages. -/
theorem result_of_courier (h : (start capacities settings keys l now).run? ms = some w)
    {result : Except RelayFault Unit} (hresult : w.relay.result? = some result) :
    (∀ s, w.relay.isAtWork s = false ∧
        (w.relay.hasEnded s = true ↔ ∀ reason, Move.die s reason ∉ ms)) ∧
      (result = .ok () ↔ ∃ c, w.relay.courier = .ended c ∧ c.result? = some (.ok ())) ∧
      (∀ f, result = .error (.publish f) ↔
        ∃ c, w.relay.courier = .ended c ∧ c.result? = some (.error f)) ∧
      (∀ reason, result = .error (.task reason) ↔ .die .courier reason ∈ ms) ∧
      ∀ f, result ≠ .error (.settings f) := by
  have hsupervised := supervised_run? h
  have hended := ended_of_result? hresult
  have hpublished := hsupervised.published _ (.inr (.inr hended))
  have hbatcher := hsupervised.batcher _ (.inr hended)
  have hledger := (hsupervised.ledger _ hended).1
  have hcourier := isRunning_of_published? hpublished
  have hstages (s : StageName) : w.relay.isAtWork s = false ∧
      (w.relay.hasEnded s = true ↔ ∀ reason, Move.die s reason ∉ ms) := by
    have hrun : w.relay.isAtWork s = false := by
      cases s with
      | batcher => exact hbatcher
      | courier => exact hcourier
      | ledger => exact hledger
    refine ⟨hrun, ?_⟩
    rw [Relay.hasEnded_iff hrun, Option.eq_none_iff_forall_ne_some]
    exact forall_congr' fun reason => not_congr (death?_start h)
  refine ⟨hstages, ?_⟩
  -- what is left is to compare what the supervisor hands on with what became of the courier
  have hdeath (reason : String) : .die .courier reason ∈ ms ↔ w.relay.courier.death? = some reason :=
    (death?_start (s := .courier) h).symm
  simp only [hdeath]
  cases hc : w.relay.courier with
  | running c => rw [hc] at hcourier; exact absurd hcourier (by simp [Worker.isRunning])
  | died reason =>
    simp only [Relay.published?, hc] at hpublished
    obtain rfl := Option.some.inj hpublished
    refine ⟨by simp, by simp, ?_, by simp⟩
    intro why
    simp [Worker.death?]
  | ended c =>
    have hover := (wired_run? h (Relay.wired_start _ _ _ _ _)).result c hc
    cases hv : c.result? with
    | none => exact absurd hv hover
    | some v =>
      simp only [Relay.published?, hc, hv] at hpublished
      cases v with
      | ok u =>
        obtain rfl := Option.some.inj hpublished
        refine ⟨by simp [hv], by simp [hv], ?_, by simp⟩
        intro why
        simp [Worker.death?]
      | error f =>
        obtain rfl := Option.some.inj hpublished
        refine ⟨by simp [hv], ?_, ?_, by simp⟩
        · intro f'
          simp [hv]
        · intro why
          simp [Worker.death?]

/-- A courier that gets no socket: the relay is called off and fails. -/
def noSocket : List Move :=
  [.announce] ++ spoolLine 1 ++ takeBatch ++ [.link (.socket (.error (.system "too many open files"))),
    .stage .ledger, .stage .batcher, .supervise, .supervise, .supervise]

theorem result_of_courier_noSocket :
    ∃ w f, lineByLine.run? noSocket = some w ∧ w.relay.result? = some (.error (.publish f)) ∧
      (∀ s, w.relay.hasEnded s = true) ∧
      ∃ c, w.relay.courier = .ended c ∧ c.result? = some (.error f) := by
  obtain ⟨w, hw⟩ : ∃ w, lineByLine.run? noSocket = some w := Option.isSome_iff_exists.1 rfl
  have hresult : (lineByLine.run? noSocket).bind (fun w => w.relay.result?)
      = some (.error (.publish (.link (.socket (.system "too many open files"))))) := rfl
  rw [hw] at hresult
  obtain ⟨hstages, -, hfault, -, -⟩ := result_of_courier hw hresult
  refine ⟨w, _, hw, hresult, ?_, (hfault _).1 rfl⟩
  intro s
  refine (hstages s).2.2 fun reason => ?_
  simp [noSocket, spoolLine, takeBatch]

/-! ### Deaths that the result does not tell -/

/-- The batcher dies with an event in its queue; the other stages end after it. -/
def batcherLost : List Move :=
  [.announce, .accept (lineRead 1), .die .batcher "capacity overflow", .stage .courier, .stage .ledger,
    .supervise, .supervise, .supervise]

/-- The ledger dies; what is delivered after that is not recorded. -/
def ledgerLost : List Move :=
  [.announce, .die .ledger "lost"] ++ spoolLine 1 ++ takeBatch ++ connect ++ exchange ++
    [.stage .courier, .dropProducer, .stage .batcher, .stage .courier, .link .closed, .supervise, .supervise,
      .supervise]

/-- **A relay can come to a good end although a stage has died**, with an event lost that was accepted,
or with one not recorded that was acknowledged. -/
theorem unnoticed_deaths :
    (∃ w, lineByLine.run? batcherLost = some w ∧ w.relay.result? = some (.ok ()) ∧
      w.relay.death? .batcher = some "capacity overflow" ∧ w.passage.accepted = [lineRead 1] ∧
      w.passage.acknowledged = []) ∧
    ∃ w, lineByLine.run? ledgerLost = some w ∧ w.relay.result? = some (.ok ()) ∧
      w.relay.death? .ledger = some "lost" ∧ w.passage.acknowledged = [⟨0, [lineRead 1]⟩] ∧
      w.passage.recorded = [] :=
  ⟨⟨_, rfl, rfl, rfl, rfl, rfl⟩, ⟨_, rfl, rfl, rfl, rfl, rfl⟩⟩

end Watched

end LogRelay
