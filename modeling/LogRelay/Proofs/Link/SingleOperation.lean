import LogRelay.Proofs.Wire.Steps

/-!
# What a single operation comes to

A `Job` is a send or a receive on a link in any state, with the sockets that it uses, in whatever way they
answer, and whenever all is called off.  It works through one socket after the other.  On each it first
tries collectors, then makes its call.  A failed call ends the socket.  A send then goes on to the next
socket, unless it was to go on with a message that had been begun before; a receive does not.

* `Job.move?`, `Job.run?`: steps and runs of a single operation;
* `IsDialing`, `IsSpent`: the sockets before and after the call;
* `Job.IsSeat`: the session in which the call is made, and its socket;
* `Job.Place`, `Job.Kept`, `kept_move?`, `kept_run?`: at each stage, what has been asked of which socket;
* `Job.SendLaw`, `Job.ReceiveLaw`, `Job.sendLaw_and_receiveLaw`: what a send and a receive come to.
-/

namespace LogRelay

/-- Whether a message is unfinished after a call has succeeded. -/
def Call.leavesMore : Call → Bool
  | send _ more => more
  | connect _ | receive => false

/-- What the failure of a call in a session comes to, for an operation that does not try again. -/
def Call.loss (limits : Limits) (s : Session) : Call → Outcome → LinkFault
  | .receive, .failed cause => .transport s.address "receive" cause
  | .receive, _ => .timeout s.address "receive" limits.receive.millis
  | _, _ => .interrupted s.address

/-- Whether a call was made, and has succeeded. -/
def Entry.accepts (c : Call) (e : Entry) : Bool := e.call? = some c && e.succeeded

/-- Only attempts to connect. -/
def IsDialing (log : List Entry) : Prop := ∀ e ∈ log, e.isConnect = true

/-- A socket on which a call was made once and failed, and which is closed. -/
def IsSpent (c : Call) (log : List Entry) : Prop :=
  ∃ dials o, IsDialing dials ∧ o.isFailure = true ∧ log = dials ++ [.call c (some o), .close]

theorem Call.isPassing_loss (limits : Limits) (s : Session) (c : Call) (o : Outcome) :
    (c.loss limits s o).isPassing = true := by
  cases c with
  | connect | send => rfl
  | receive => cases o <;> rfl

theorem isDialing_nil : IsDialing [] := fun _ he => absurd he List.not_mem_nil

theorem IsDialing.concat {log : List Entry} (h : IsDialing log) (a : Address) (o : Option Outcome) :
    IsDialing (log ++ [.call (.connect a) o]) := by
  intro e he
  rcases List.mem_append.1 he with he | he
  · exact h e he
  · obtain rfl := List.mem_singleton.1 he
    rfl

section

variable {c : Call} {log : List Entry} {e : Entry}

/-- An attempt to connect is no other call. -/
theorem IsDialing.call?_ne (h : IsDialing log) (hc : ∀ a, c ≠ .connect a) (he : e ∈ log) :
    e.call? ≠ some c := by
  have hconnect := h e he
  cases e with
  | close => exact absurd hconnect (by simp [Entry.isConnect])
  | call k o =>
    cases k with
    | connect a => exact fun hk => hc a (Option.some.inj hk).symm
    | send | receive => exact absurd hconnect (by simp [Entry.isConnect])

theorem IsDialing.not_accepts (h : IsDialing log) (hc : ∀ a, c ≠ .connect a) (he : e ∈ log) :
    ¬ e.accepts c = true := by
  simp [Entry.accepts, h.call?_ne hc he]

theorem IsSpent.not_accepts (h : IsSpent c log) (hc : ∀ a, c ≠ .connect a) (he : e ∈ log) :
    ¬ e.accepts c = true := by
  obtain ⟨dials, o, hdials, ho, rfl⟩ := h
  rcases List.mem_append.1 he with he | he
  · exact hdials.not_accepts hc he
  · obtain rfl | rfl := by simpa using he
    · cases o with
      | failed | expired => simp [Entry.accepts, Entry.succeeded]
      | done | withheld | abandoned => exact absurd ho (by simp [Outcome.isFailure])
    · simp [Entry.accepts, Entry.call?]

end

/-- An operation on a link, and the sockets of the link. -/
structure Job where
  operation : Operation
  wire : Wire
  /-- Why sockets could not be opened. -/
  refused : List SocketFault := []

namespace Job

/-- An operation begins on a link in any state. -/
def start (l : Link) (g : Goal) : Job where
  operation := (Operation.start l g).next
  wire := .ofLink l

/-- What comes of a step, if it is possible. -/
def move? (j : Job) (m : Wire.Step) : Option Job :=
  (j.wire.step? j.operation.want m).map fun wire =>
    match m with
    | .link a =>
      { operation := (j.operation.answer a).next, wire, refused := j.refused ++ a.refusal?.toList }
    | .callOff | .call => { j with wire }

/-- What comes of several steps, if each is possible. -/
abbrev run? : Job → List Wire.Step → Option Job := runSteps move?

/-! ### Where an operation stands -/

/-- The sockets that a job has left behind: on each of them its call has failed.  It has left one behind
only if it was not to go on with a message that had been begun before. -/
structure IsRetrying (l : Link) (c : Call) (earlier : List (List Entry)) : Prop where
  spent : ∀ log ∈ earlier, IsSpent c log
  once : c = .receive → earlier = []
  whole : ∀ s, l.session = some s → s.midMessage = false

/-- The session in which the call is made, with what was asked of its socket before: it is the one that
there was, or the one in which the last attempt to connect has ended. -/
def IsSeat (l : Link) (c : Call) (s : Session) (dials : List Entry) (earlier : List (List Entry)) : Prop :=
  (l.session = some s ∧ dials = [] ∧ earlier = []) ∨
    IsRetrying l c earlier ∧ IsDialing dials ∧ s.midMessage = false ∧
      ∃ x, dials.getLast? = some (.call (.connect s.address) (some (.done x)))

variable {l : Link} {g : Goal} {c : Call} {j j' : Job} {s : Session} {dials : List Entry}
  {earlier : List (List Entry)} {m : Wire.Step} {ms : List Wire.Step} {a : LinkAnswer}

theorem IsSeat.isDialing (h : IsSeat l c s dials earlier) : IsDialing dials := by
  obtain ⟨-, rfl, -⟩ | ⟨-, hdials, -⟩ := h
  · exact isDialing_nil
  · exact hdials

theorem IsSeat.spent (h : IsSeat l c s dials earlier) : ∀ log ∈ earlier, IsSpent c log := by
  obtain ⟨-, -, rfl⟩ | ⟨hretrying, -⟩ := h
  · simp
  · exact hretrying.spent

theorem IsSeat.once (h : IsSeat l c s dials earlier) (hc : c = .receive) : earlier = [] := by
  obtain ⟨-, -, rfl⟩ | ⟨hretrying, -⟩ := h
  · rfl
  · exact hretrying.once hc

/-- A session with an unfinished message is the one that there was. -/
theorem IsSeat.of_midMessage (h : IsSeat l c s dials earlier) (hs : s.midMessage = true) :
    l.session = some s ∧ dials = [] ∧ earlier = [] := by
  obtain hfirst | ⟨-, -, hwhole, -⟩ := h
  · exact hfirst
  · exact absurd hs (by simp [hwhole])

/-- Without an unfinished message a failed send is tried again. -/
theorem IsSeat.isRetrying (h : IsSeat l c s dials earlier) (hs : s.midMessage = false) :
    IsRetrying l c earlier := by
  obtain ⟨hl, -, rfl⟩ | ⟨hretrying, -⟩ := h
  · refine ⟨by simp, fun _ => rfl, fun s' hs' => ?_⟩
    obtain rfl := Option.some.inj (hl.symm.trans hs')
    exact hs
  · exact hretrying

/-- The last socket of an operation that was called off: at most its call was given up on it, or it was
closed before it got connected. -/
def IsLeft (c : Call) (log : List Entry) : Prop :=
  ∃ dials tail, log = dials ++ tail ∧ IsDialing dials ∧
    (tail = [] ∨ tail = [.call c (some .abandoned)] ∨ tail = [.close])

/-- What has been asked of which socket when an operation that makes the call `c` is at a stage. -/
def Place (l : Link) (c : Call) (j : Job) : Stage → Prop
  | .opening => IsRetrying l c j.wire.sockets
  | .choosing _ | .connecting _ _ | .resting _ =>
    ∃ dials earlier, j.wire.sockets = dials :: earlier ∧ IsDialing dials ∧ IsRetrying l c earlier
  | .releasing =>
    j.wire.called = true ∧
      ∃ dials earlier, j.wire.sockets = dials :: earlier ∧ IsDialing dials ∧ IsRetrying l c earlier
  | .using s => ∃ dials earlier, j.wire.sockets = dials :: earlier ∧ IsSeat l c s dials earlier
  | .ending .again =>
    c ≠ .receive ∧ ∃ dials o earlier, j.wire.sockets = (dials ++ [.call c (some o)]) :: earlier ∧
      IsDialing dials ∧ o.isFailure = true ∧ IsRetrying l c earlier
  | .ending (.stop _ r) =>
    j.operation.link.session = none ∧ ∃ s dials o earlier,
      j.wire.sockets = (dials ++ [.call c (some o)]) :: earlier ∧ IsSeat l c s dials earlier ∧
        o.isFailure = true ∧ r = .error (c.loss l.limits s o) ∧ (c ≠ .receive → s.midMessage = true)
  | .finished (.ok x) =>
    ∃ s dials y earlier, j.wire.sockets = (dials ++ [.call c (some (.done y))]) :: earlier ∧
      IsSeat l c s dials earlier ∧
      j.operation.link.session = some { s with midMessage := c.leavesMore } ∧ (c = .receive → x = y)
  | .finished (.error .cancelled) =>
    j.wire.called = true ∧ ∃ log earlier, j.wire.sockets = log :: earlier ∧ IsLeft c log ∧
      (earlier = [] ∨ IsRetrying l c earlier)
  | .finished (.error (.socket cause)) => cause ∈ j.refused ∧ IsRetrying l c j.wire.sockets
  | .finished (.error f) =>
    j.operation.link.session = none ∧ ∃ s dials o earlier,
      j.wire.sockets = (dials ++ [.call c (some o), .close]) :: earlier ∧ IsSeat l c s dials earlier ∧
        o.isFailure = true ∧ f = c.loss l.limits s o ∧ (c ≠ .receive → s.midMessage = true)

/-- The place of an operation that has lost its session for good. -/
theorem place_lost {f : LinkFault} (hf : f.isPassing = true)
    (h : j.operation.link.session = none ∧ ∃ s dials o earlier,
      j.wire.sockets = (dials ++ [.call c (some o), .close]) :: earlier ∧ IsSeat l c s dials earlier ∧
        o.isFailure = true ∧ f = c.loss l.limits s o ∧ (c ≠ .receive → s.midMessage = true)) :
    j.Place l c (.finished (.error f)) := by
  cases f with
  | cancelled | socket => exact absurd hf (by simp [LinkFault.isPassing])
  | timeout | transport | interrupted => exact h

/-- An operation that makes the call `c`, and where it stands. -/
structure Kept (l : Link) (g : Goal) (c : Call) (j : Job) : Prop where
  goal : j.operation.goal = g
  limits : j.operation.link.limits = l.limits
  awaits : j.wire.Awaits j.operation.want
  place : j.Place l c j.operation.stage

theorem kept_start (hg : g.call? = some c) : (start l g).Kept l g c := by
  have hclose : g ≠ .close := by rintro rfl; exact absurd hg (by simp [Goal.call?])
  cases hl : l.session with
  | none =>
    have hop := Operation.start_of_none (g := g) hl
    have hstage : Operation.stageWithout g = .opening := by
      cases g with
      | close => exact absurd rfl hclose
      | ensure | send | receive => rfl
    refine ⟨by simp [start, hop], by simp [start, hop], Wire.awaits_ofLink l, ?_⟩
    simp only [start, hop, hstage, Place, Wire.ofLink, Link.isConnected, hl]
    exact ⟨by simp, fun _ => rfl, by simp [hl]⟩
  | some s =>
    have hop := Operation.start_of_some hl hclose
    have hstage : Operation.stageWith s g = .using s := by
      cases g with
      | close | ensure => exact absurd hg (by simp [Goal.call?])
      | send | receive => rfl
    refine ⟨by simp [start, hop], by simp [start, hop], Wire.awaits_ofLink l, ?_⟩
    simp only [start, hop, hstage, Place, Wire.ofLink, Link.isConnected, hl]
    exact ⟨[], [], rfl, .inl ⟨hl, rfl, rfl⟩⟩

/-! ### One step -/

/-- The fault that a receive comes to. -/
theorem stage_of_receiveFailed {o : Operation} {r : Outcome} (hs : o.stage = .using s)
    (hg : o.goal = .receive) (hr : r.isFailure = true) :
    ∃ notices, (o.answer (.outcome r)).next.stage
      = .ending (.stop notices (.error (Call.loss o.link.limits s .receive r))) := by
  have hanswer : (o.answer (.outcome r)).next = (o.answerReceive s r).next := by
    simp only [Operation.answer, hs, hg]
  rw [hanswer]
  cases r with
  | failed cause => exact ⟨[], rfl⟩
  | expired => exact ⟨_, rfl⟩
  | done | withheld | abandoned => exact absurd hr (by simp [Outcome.isFailure])

theorem Kept.call_eq (h : j.Kept l g c) (hg : g.call? = some c) {g' : Goal} {c' : Call}
    (hgoal : j.operation.goal = g') (hc : g'.call? = some c') : c = c' := by
  rw [← h.goal, hgoal, hc] at hg
  exact (Option.some.inj hg).symm

theorem ne_withheld_of_isFailure {o : Outcome} (h : o.isFailure = true) : o ≠ .withheld := by
  rintro rfl
  exact absurd h (by simp [Outcome.isFailure])

/-- The outcome of the call is entered for the socket of the session. -/
theorem Kept.offered (h : j.Kept l g c) (hg : g.call? = some c) {o : Outcome}
    (hp : j.wire.possible j.operation.want (.outcome o) = true) (hs : j.operation.stage = .using s)
    (ho : o ≠ .withheld) :
    ∃ dials earlier, (j.wire.note 0 (.outcome o)).sockets = (dials ++ [.call c (some o)]) :: earlier ∧
      IsSeat l c s dials earlier := by
  have hplace := h.place
  rw [hs] at hplace
  obtain ⟨dials, earlier, hsockets, hseat⟩ := hplace
  obtain ⟨limit, hwant⟩ := Operation.want_of_using (h.goal ▸ hg) hs
  exact ⟨dials, earlier, Wire.sockets_of_outcome 0 h.awaits hwant hp ho hsockets, hseat⟩

/-- The outcome of an attempt to connect is entered for the latest socket. -/
theorem Kept.dialed (h : j.Kept l g c) {o : Outcome} {e : Address} {n : Nat}
    (hp : j.wire.possible j.operation.want (.outcome o) = true) (hs : j.operation.stage = .connecting e n)
    (ho : o ≠ .withheld) :
    ∃ dials earlier,
      (j.wire.note 0 (.outcome o)).sockets = (dials ++ [.call (.connect e) (some o)]) :: earlier ∧
        IsDialing (dials ++ [.call (.connect e) (some o)]) ∧ IsRetrying l c earlier := by
  have hplace := h.place
  rw [hs] at hplace
  obtain ⟨dials, earlier, hsockets, hdials, hretrying⟩ := hplace
  have hwant : j.operation.want = .call (.connect e) j.operation.link.limits.connect := by
    rw [Operation.want, hs]
  exact ⟨dials, earlier, Wire.sockets_of_outcome 0 h.awaits hwant hp ho hsockets, hdials.concat e _,
    hretrying⟩

/-- The call is withheld or given up when all is called off. -/
theorem Kept.calledOff (h : j.Kept l g c) (hg : g.call? = some c) {o : Outcome}
    (hp : j.wire.possible j.operation.want (.outcome o) = true) (hs : j.operation.stage = .using s)
    (ho : o.isCallOff = true) :
    ∃ log earlier, (j.wire.note 0 (.outcome o)).sockets = log :: earlier ∧ IsLeft c log ∧
      (earlier = [] ∨ IsRetrying l c earlier) := by
  cases o with
  | withheld =>
    have hplace := h.place
    rw [hs] at hplace
    obtain ⟨dials, earlier, hsockets, hseat⟩ := hplace
    exact ⟨dials, earlier, (Wire.sockets_of_withheld hp).trans hsockets,
      ⟨dials, [], (List.append_nil _).symm, hseat.isDialing, .inl rfl⟩, hseat.imp (fun h => h.2.2) And.left⟩
  | abandoned =>
    obtain ⟨dials, earlier, hnote, hseat⟩ := h.offered hg hp hs (by simp)
    exact ⟨_, earlier, hnote, ⟨dials, _, rfl, hseat.isDialing, .inr (.inl rfl)⟩,
      hseat.imp (fun h => h.2.2) And.left⟩
  | done | failed | expired => exact absurd ho (by simp [Outcome.isCallOff])

/-- **What an answer adds to the sockets takes an operation to the place of its next stage.** -/
theorem place_turn (h : j.Kept l g c) (hg : g.call? = some c)
    (hp : j.wire.possible j.operation.want a = true) {o' : Operation} (ht : j.operation.Turn a o')
    (ho' : (j.operation.answer a).next = o') :
    Place l c ⟨o', j.wire.note 0 a, j.refused ++ a.refusal?.toList⟩ o'.stage := by
  have hplace := h.place
  cases ht with
  | opened hs =>
    rw [hs] at hplace
    exact ⟨[], j.wire.sockets, rfl, isDialing_nil, hplace⟩
  | refused hs cause =>
    rw [hs] at hplace
    exact ⟨List.mem_append_right _ (by simp [LinkAnswer.refusal?]), hplace⟩
  | chosen hs | rested hs =>
    rw [hs] at hplace
    exact hplace
  | @connected e n hs x =>
    have hstage : Operation.stageWith ⟨e, false⟩ j.operation.goal = .using ⟨e, false⟩ := by
      rw [h.goal]
      cases g with
      | close | ensure => exact absurd hg (by simp [Goal.call?])
      | send | receive => rfl
    obtain ⟨dials, earlier, hnote, hdials, hretrying⟩ := h.dialed hp hs (by simp)
    rw [hstage]
    exact ⟨_, earlier, hnote, .inr ⟨hretrying, hdials, rfl, x, by simp⟩⟩
  | connectFailed hs hr =>
    obtain ⟨dials, earlier, hnote, hdials, hretrying⟩ := h.dialed hp hs (ne_withheld_of_isFailure hr)
    exact ⟨_, earlier, hnote, hdials, hretrying⟩
  | @connectCancelled e n hs r hr =>
    refine ⟨(Wire.called_note _ _ _).trans (Wire.called_of_isCallOff hp hr), ?_⟩
    by_cases hw : r = .withheld
    · subst hw
      rw [hs] at hplace
      obtain ⟨dials, earlier, hsockets, hdials, hretrying⟩ := hplace
      exact ⟨dials, earlier, (Wire.sockets_of_withheld hp).trans hsockets, hdials, hretrying⟩
    · obtain ⟨dials, earlier, hnote, hdials, hretrying⟩ := h.dialed hp hs hw
      exact ⟨_, earlier, hnote, hdials, hretrying⟩
  | restCancelled hs =>
    rw [hs] at hplace
    exact ⟨Wire.called_of_isCallOff hp rfl, hplace⟩
  | released hs =>
    rw [hs] at hplace
    obtain ⟨hcalled, dials, earlier, hsockets, hdials, hretrying⟩ := hplace
    exact ⟨(Wire.called_note _ _ _).trans hcalled, _, earlier, Wire.sockets_note_closed 0 hsockets,
      ⟨dials, _, rfl, hdials, .inr (.inr rfl)⟩, .inr hretrying⟩
  | sent hs hgoal x =>
    obtain rfl := h.call_eq hg hgoal rfl
    obtain ⟨dials, earlier, hnote, hseat⟩ := h.offered hg hp hs (by simp)
    exact ⟨_, dials, x, earlier, hnote, hseat, rfl, by simp⟩
  | sendFailed hs hgoal hm hr =>
    obtain rfl := h.call_eq hg hgoal rfl
    obtain ⟨dials, earlier, hnote, hseat⟩ := h.offered hg hp hs (ne_withheld_of_isFailure hr)
    exact ⟨by simp, dials, _, earlier, hnote, hseat.isDialing, hr, hseat.isRetrying hm⟩
  | sendBroken hs hgoal hm hr notices =>
    obtain rfl := h.call_eq hg hgoal rfl
    obtain ⟨dials, earlier, hnote, hseat⟩ := h.offered hg hp hs (ne_withheld_of_isFailure hr)
    exact ⟨rfl, _, dials, _, earlier, hnote, hseat, hr, rfl, fun _ => hm⟩
  | received hs hgoal reply =>
    obtain rfl := h.call_eq hg hgoal rfl
    obtain ⟨dials, earlier, hnote, hseat⟩ := h.offered hg hp hs (by simp)
    exact ⟨_, dials, reply, earlier, hnote, hseat, rfl, fun _ => rfl⟩
  | receiveFailed hs hgoal hr notices hf =>
    obtain rfl := h.call_eq hg hgoal rfl
    obtain ⟨dials, earlier, hnote, hseat⟩ := h.offered hg hp hs (ne_withheld_of_isFailure hr)
    obtain ⟨notices', hstage⟩ := stage_of_receiveFailed hs hgoal hr
    rw [ho', h.limits] at hstage
    obtain ⟨-, hf⟩ := Sequel.stop.inj (Stage.ending.inj hstage)
    exact ⟨rfl, _, dials, _, earlier, hnote, hseat, hr, hf, fun hne => absurd rfl hne⟩
  | useCancelled hs hr =>
    exact ⟨(Wire.called_note _ _ _).trans (Wire.called_of_isCallOff hp hr), h.calledOff hg hp hs hr⟩
  | renewed hs =>
    rw [hs] at hplace
    obtain ⟨hc, dials, o, earlier, hsockets, hdials, ho, hretrying⟩ := hplace
    have hnote := Wire.sockets_note_closed 0 hsockets
    show IsRetrying l c (j.wire.note 0 .closed).sockets
    rw [hnote]
    exact ⟨List.forall_mem_cons.2 ⟨⟨dials, o, hdials, ho, by simp⟩, hretrying.spent⟩,
      fun hno => absurd hno hc, hretrying.whole⟩
  | ended hs =>
    rw [hs] at hplace
    obtain ⟨hsession, s, dials, o, earlier, hsockets, hseat, ho, rfl, hmid⟩ := hplace
    have hnote := Wire.sockets_note_closed 0 hsockets
    rw [List.append_assoc] at hnote
    exact place_lost (Call.isPassing_loss _ _ _ _)
      ⟨hsession, s, dials, o, earlier, hnote, hseat, ho, rfl, hmid⟩

/-- A place has to do with the sockets and the link alone. -/
theorem Place.congr {stage : Stage} (h : j.Place l c stage) (ho : j'.operation = j.operation)
    (hs : j'.wire.sockets = j.wire.sockets) (hc : j.wire.called = true → j'.wire.called = true)
    (hr : j'.refused = j.refused) : j'.Place l c stage := by
  cases stage with
  | opening | choosing | connecting | resting | «using» => simpa only [Place, hs] using h
  | releasing =>
    simp only [Place, hs] at h ⊢
    exact ⟨hc h.1, h.2⟩
  | ending next => cases next <;> simpa only [Place, hs, ho] using h
  | finished r =>
    cases r with
    | ok x => simpa only [Place, hs, ho] using h
    | error f =>
      cases f with
      | cancelled =>
        simp only [Place, hs] at h ⊢
        exact ⟨hc h.1, h.2⟩
      | socket cause => simpa only [Place, hs, hr] using h
      | timeout | transport | interrupted => simpa only [Place, hs, ho] using h

theorem kept_move? (h : j.Kept l g c) (hg : g.call? = some c) (hm : j.move? m = some j') :
    j'.Kept l g c := by
  obtain ⟨wire, hw, rfl⟩ := Option.map_eq_some_iff.1 hm
  cases m with
  | callOff =>
    obtain ⟨hsockets, hcalled⟩ := Wire.sockets_step? hw (by simp)
    exact ⟨h.goal, h.limits, Wire.awaits_callOff h.awaits hw, h.place.congr rfl hsockets hcalled rfl⟩
  | call =>
    obtain ⟨hsockets, hcalled⟩ := Wire.sockets_step? hw (by simp)
    exact ⟨h.goal, h.limits, Wire.awaits_call hw, h.place.congr rfl hsockets hcalled rfl⟩
  | link a =>
    have hawaits := Wire.awaits_link (j.operation.answer a).next.want h.awaits hw
    obtain ⟨hp, rfl⟩ := Wire.of_link_step? hw
    have ht := Operation.turn_answer (Wire.fits_of_possible hp)
    exact ⟨(Operation.goal_turn ht).trans h.goal, (Operation.limits_turn ht).trans h.limits, hawaits,
      place_turn h hg hp ht rfl⟩

theorem kept_run? (hg : g.call? = some c) (h : (start l g).run? ms = some j) : j.Kept l g c :=
  runSteps_induction (fun _ _ _ hj hm => kept_move? hj hg hm) h (kept_start hg)

/-! ### What it comes to -/

variable {r : LinkResult} {frame : Bytes} {more : Bool}

/-- What a send comes to. -/
structure SendLaw (l : Link) (frame : Bytes) (more : Bool) (j : Job) (r : LinkResult) : Prop where
  /-- If it succeeds, the frame was taken on the socket of the session that there is now, and it was offered
  in vain on every socket before, each of which is closed. -/
  accepted : ∀ x, r = .ok x → ∃ s dials y earlier,
    j.wire.sockets = (dials ++ [.call (.send frame more) (some (.done y))]) :: earlier ∧
      IsSeat l (.send frame more) s dials earlier ∧ IsDialing dials ∧
      (∀ log ∈ earlier, IsSpent (.send frame more) log) ∧
      j.operation.link.session = some { s with midMessage := more }
  /-- Then the frame was taken exactly once. -/
  once : ∀ x, r = .ok x → j.wire.sockets.flatten.countP (Entry.accepts (.send frame more)) = 1
  /-- It is interrupted if and only if the session that there was had an unfinished message, and the frame
  was offered in vain. -/
  interrupted : ∀ e, r = .error (.interrupted e) ↔
    ∃ s log o, l.session = some s ∧ s.address = e ∧ s.midMessage = true ∧
      log ∈ j.wire.sockets ∧ .call (.send frame more) (some o) ∈ log ∧ o.isFailure = true
  /-- Then it was offered only once, the session is closed, and no socket was opened. -/
  broken : ∀ e, r = .error (.interrupted e) → j.operation.link.session = none ∧
    ∃ o, o.isFailure = true ∧ j.wire.sockets = [[.call (.send frame more) (some o), .close]]
  cancelled : r = .error .cancelled → j.wire.called = true
  refused : ∀ cause, r = .error (.socket cause) → cause ∈ j.refused
  /-- It comes to no other fault. -/
  faults : ∀ f, r = .error f →
    (∃ e, f = .interrupted e) ∨ f = .cancelled ∨ ∃ cause, f = .socket cause

/-- What a receive comes to. -/
structure ReceiveLaw (l : Link) (j : Job) (r : LinkResult) : Prop where
  /-- It waits for a reply at most once. -/
  once : j.wire.sockets.flatten.countP (fun e => e.call? = some .receive) ≤ 1
  /-- If the reply comes, the session in which it came remains, without an unfinished message. -/
  received : ∀ x, r = .ok x → ∃ s dials,
    j.wire.sockets = [dials ++ [.call .receive (some (.done x))]] ∧ IsSeat l .receive s dials [] ∧
      j.operation.link.session = some { s with midMessage := false }
  /-- If it does not come, the fault names the collector of the session; the session is closed, and no other
  socket was opened. -/
  lost : ∀ f, r = .error f → f.isPassing = true → j.operation.link.session = none ∧ ∃ s dials o,
    j.wire.sockets = [dials ++ [.call .receive (some o), .close]] ∧ IsSeat l .receive s dials [] ∧
      (o = .expired ∧ f = .timeout s.address "receive" l.limits.receive.millis ∨
        ∃ cause, o = .failed cause ∧ f = .transport s.address "receive" cause)
  cancelled : r = .error .cancelled → j.wire.called = true
  refused : ∀ cause, r = .error (.socket cause) → cause ∈ j.refused

/-- A call that has succeeded on the latest socket has succeeded once. -/
theorem countP_accepts {x : Bytes} (hc : ∀ a, c ≠ .connect a) (hdials : IsDialing dials)
    (hspent : ∀ log ∈ earlier, IsSpent c log) :
    ((dials ++ [.call c (some (.done x))]) :: earlier).flatten.countP (Entry.accepts c) = 1 := by
  have hbefore : dials.countP (Entry.accepts c) = 0 :=
    List.countP_eq_zero.2 fun e he => hdials.not_accepts hc he
  have hothers : earlier.flatten.countP (Entry.accepts c) = 0 := by
    refine List.countP_eq_zero.2 fun e he => ?_
    obtain ⟨log, hlog, he⟩ := List.mem_flatten.1 he
    exact (hspent log hlog).not_accepts hc he
  rw [List.flatten_cons, List.countP_append, List.countP_append, hbefore, hothers]
  simp [Entry.accepts, Entry.call?, Entry.succeeded]

/-- **To offer a frame in vain in a session with an unfinished message is to be interrupted.** -/
theorem interrupted_of_offered {log : List Entry} {o : Outcome} (h : j.Kept l g (.send frame more))
    (hr : j.operation.stage = .finished r) (hl : l.session = some s) (hm : s.midMessage = true)
    (hlog : log ∈ j.wire.sockets) (he : .call (.send frame more) (some o) ∈ log) (ho : o.isFailure = true) :
    r = .error (.interrupted s.address) := by
  have hplace : j.Place l _ (.finished r) := hr ▸ h.place
  -- nothing was left behind
  have hfirst {earlier : List (List Entry)} (hretrying : IsRetrying l (.send frame more) earlier) : False :=
    absurd hm (by simp [hretrying.whole s hl])
  cases r with
  | ok x =>
    obtain ⟨s', dials, y, earlier, hsockets, ⟨-, rfl, rfl⟩ | ⟨hretrying, -⟩, -⟩ := hplace
    · obtain rfl : log = [_] := by simpa [hsockets] using hlog
      obtain rfl : o = .done y := by simpa using he
      exact absurd ho (by simp [Outcome.isFailure])
    · exact (hfirst hretrying).elim
  | error f =>
    cases f with
    | cancelled =>
      obtain ⟨-, log', earlier, hsockets, ⟨dials, tail, rfl, hdials, htail⟩, rfl | hretrying⟩ := hplace
      · obtain rfl : log = dials ++ tail := by simpa [hsockets] using hlog
        rcases List.mem_append.1 he with he | he
        · exact absurd rfl (hdials.call?_ne (c := .send frame more) (by simp) he)
        · obtain rfl | rfl | rfl := htail
          · exact absurd he List.not_mem_nil
          · obtain rfl : o = .abandoned := by simpa using he
            exact absurd ho (by simp [Outcome.isFailure])
          · exact absurd he (by simp)
      · exact (hfirst hretrying).elim
    | socket cause => exact (hfirst hplace.2).elim
    | timeout | transport | interrupted =>
      obtain ⟨-, s', dials, o', earlier, -, ⟨hl', -⟩ | ⟨hretrying, -⟩, -, hf, -⟩ := hplace
      · obtain rfl : s = s' := Option.some.inj (hl.symm.trans hl')
        exact congrArg Except.error hf
      · exact (hfirst hretrying).elim

theorem sendLaw (h : j.Kept l g (.send frame more)) (hr : j.operation.stage = .finished r) :
    j.SendLaw l frame more r := by
  have hplace : j.Place l _ (.finished r) := hr ▸ h.place
  have hbroken : ∀ e, r = .error (.interrupted e) → j.operation.link.session = none ∧
      ∃ s o, l.session = some s ∧ s.address = e ∧ s.midMessage = true ∧ o.isFailure = true ∧
        j.wire.sockets = [[.call (.send frame more) (some o), .close]] := by
    rintro e rfl
    obtain ⟨hsession, s, dials, o, earlier, hsockets, hseat, ho, hf, hmid⟩ := hplace
    have hm : s.midMessage = true := hmid (by simp)
    obtain ⟨hl, rfl, rfl⟩ := hseat.of_midMessage hm
    exact ⟨hsession, s, o, hl, (LinkFault.interrupted.inj hf).symm, hm, ho, hsockets⟩
  constructor
  case accepted =>
    rintro x rfl
    obtain ⟨s, dials, y, earlier, hsockets, hseat, hsession, -⟩ := hplace
    exact ⟨s, dials, y, earlier, hsockets, hseat, hseat.isDialing, hseat.spent, hsession⟩
  case once =>
    rintro x rfl
    obtain ⟨s, dials, y, earlier, hsockets, hseat, -⟩ := hplace
    rw [hsockets]
    exact countP_accepts (by simp) hseat.isDialing hseat.spent
  case interrupted =>
    refine fun e => ⟨fun he => ?_, ?_⟩
    · obtain ⟨-, s, o, hl, haddress, hm, ho, hsockets⟩ := hbroken e he
      exact ⟨s, _, o, hl, haddress, hm, by rw [hsockets]; exact List.mem_singleton_self _, by simp, ho⟩
    · rintro ⟨s, log, o, hl, rfl, hm, hlog, he, ho⟩
      exact interrupted_of_offered h hr hl hm hlog he ho
  case broken =>
    intro e he
    obtain ⟨hsession, s, o, -, -, -, ho, hsockets⟩ := hbroken e he
    exact ⟨hsession, o, ho, hsockets⟩
  case cancelled =>
    rintro rfl
    exact hplace.1
  case refused =>
    rintro cause rfl
    exact hplace.1
  case faults =>
    rintro f rfl
    cases f with
    | interrupted e => exact .inl ⟨e, rfl⟩
    | cancelled => exact .inr (.inl rfl)
    | socket cause => exact .inr (.inr ⟨cause, rfl⟩)
    | timeout | transport =>
      obtain ⟨-, s, dials, o, earlier, -, -, -, hf, -⟩ := hplace
      exact absurd hf (by simp [Call.loss])

/-- What is asked of the sockets of a receive. -/
theorem countP_receive {tail : List Entry} (hdials : IsDialing dials)
    (htail : tail.countP (fun e => e.call? = some .receive) ≤ 1) :
    ([dials ++ tail]).flatten.countP (fun e => e.call? = some .receive) ≤ 1 := by
  have hbefore : dials.countP (fun e => e.call? = some .receive) = 0 :=
    List.countP_eq_zero.2 fun e he => by simpa using hdials.call?_ne (c := .receive) (by simp) he
  rw [List.flatten_singleton, List.countP_append, hbefore]
  omega

/-- A receive uses one socket at most, and waits on it once at most. -/
theorem once_of_finished (h : j.Kept l g .receive) (hr : j.operation.stage = .finished r) :
    j.wire.sockets.flatten.countP (fun e => e.call? = some .receive) ≤ 1 := by
  have hplace : j.Place l _ (.finished r) := hr ▸ h.place
  cases r with
  | ok x =>
    obtain ⟨s, dials, y, earlier, hsockets, hseat, -⟩ := hplace
    obtain rfl := hseat.once rfl
    rw [hsockets]
    exact countP_receive hseat.isDialing (by simp [Entry.call?])
  | error f =>
    cases f with
    | cancelled =>
      obtain ⟨-, log, earlier, hsockets, ⟨dials, tail, rfl, hdials, htail⟩, hearlier⟩ := hplace
      have hnone : earlier = [] := hearlier.elim id fun hretrying => hretrying.once rfl
      rw [hsockets, hnone]
      obtain rfl | rfl | rfl := htail
      · exact countP_receive hdials (by simp)
      · exact countP_receive hdials (by simp [Entry.call?])
      · exact countP_receive hdials (by simp [Entry.call?])
    | socket cause =>
      rw [hplace.2.once rfl]
      exact Nat.zero_le 1
    | timeout | transport | interrupted =>
      obtain ⟨-, s, dials, o, earlier, hsockets, hseat, -⟩ := hplace
      obtain rfl := hseat.once rfl
      rw [hsockets]
      exact countP_receive hseat.isDialing (by simp [Entry.call?])

theorem receiveLaw (h : j.Kept l g .receive) (hr : j.operation.stage = .finished r) : j.ReceiveLaw l r := by
  have hplace : j.Place l _ (.finished r) := hr ▸ h.place
  have hlost : ∀ f, r = .error f → f.isPassing = true → j.operation.link.session = none ∧ ∃ s dials o,
      j.wire.sockets = [dials ++ [.call .receive (some o), .close]] ∧ IsSeat l .receive s dials [] ∧
        o.isFailure = true ∧ f = Call.loss l.limits s .receive o := by
    rintro f rfl hf
    cases f with
    | cancelled | socket => exact absurd hf (by simp [LinkFault.isPassing])
    | timeout | transport | interrupted =>
      obtain ⟨hsession, s, dials, o, earlier, hsockets, hseat, ho, hf, -⟩ := hplace
      obtain rfl := hseat.once rfl
      exact ⟨hsession, s, dials, o, hsockets, hseat, ho, hf⟩
  constructor
  case once => exact once_of_finished h hr
  case received =>
    rintro x rfl
    obtain ⟨s, dials, y, earlier, hsockets, hseat, hsession, hreply⟩ := hplace
    obtain rfl := hseat.once rfl
    obtain rfl := hreply rfl
    exact ⟨s, dials, hsockets, hseat, hsession⟩
  case lost =>
    intro f hr hf
    obtain ⟨hsession, s, dials, o, hsockets, hseat, ho, rfl⟩ := hlost f hr hf
    refine ⟨hsession, s, dials, o, hsockets, hseat, ?_⟩
    cases o with
    | expired => exact .inl ⟨rfl, rfl⟩
    | failed cause => exact .inr ⟨cause, rfl, rfl⟩
    | done | withheld | abandoned => exact absurd ho (by simp [Outcome.isFailure])
  case cancelled =>
    rintro rfl
    exact hplace.1
  case refused =>
    rintro cause rfl
    exact hplace.1

/-- **What a send and a receive come to**, on a link in any state, in whatever way its sockets answer, and
whenever all is called off. -/
theorem sendLaw_and_receiveLaw (h : (start l g).run? ms = some j) (hr : j.operation.result? = some r) :
    (∀ frame more, g = .send frame more → j.SendLaw l frame more r) ∧
      (g = .receive → j.ReceiveLaw l r) := by
  have hstage := Operation.stage_of_result? hr
  refine ⟨?_, ?_⟩
  · rintro frame more rfl
    exact sendLaw (kept_run? rfl h) hstage
  · rintro rfl
    exact receiveLaw (kept_run? rfl h) hstage

/-- The only collector. -/
def collector : Address := ⟨"tcp://collector:5005"⟩

def inSession (midMessage : Bool) : Link where
  servers := ⟨[collector], by decide⟩
  limits := ⟨.ofMillis 1000, .ofMillis 1000, .ofMillis 1000⟩
  reconnect := default
  session := some ⟨collector, midMessage⟩

/-- The call in the session takes too long, and its socket is closed. -/
def expiring : List Wire.Step := [.call, .link (.outcome .expired), .link .closed]

/-- The call is made on a new socket, and succeeds. -/
def succeedingAnew : List Wire.Step :=
  [.link (.socket (.ok ())), .link (.picked collector), .call, .link (.outcome (.done [])), .call,
    .link (.outcome (.done []))]

theorem sendLaw_and_receiveLaw_expiring :
    (∃ j, (start (inSession true) (.send [1] false)).run? expiring = some j ∧
      j.operation.result? = some (.error (.interrupted collector)) ∧
      ∃ o, o.isFailure = true ∧ j.wire.sockets = [[.call (.send [1] false) (some o), .close]]) ∧
    (∃ j, (start (inSession false) (.send [1] false)).run? (expiring ++ succeedingAnew) = some j ∧
      j.operation.result? = some (.ok []) ∧
      j.wire.sockets.flatten.countP (Entry.accepts (.send [1] false)) = 1) ∧
    ∃ j, (start (inSession true) .receive).run? expiring = some j ∧
      j.operation.result? = some (.error (.timeout collector "receive" 1000)) ∧
      j.operation.link.session = none := by
  refine ⟨?_, ?_, ?_⟩
  · obtain ⟨j, hj⟩ : ∃ j, (start (inSession true) (.send [1] false)).run? expiring = some j :=
      Option.isSome_iff_exists.1 rfl
    have hresult : ((start (inSession true) (.send [1] false)).run? expiring).map
        (fun j => j.operation.result?) = some (some (.error (.interrupted collector))) := rfl
    rw [hj] at hresult
    have hresult := Option.some.inj hresult
    have hlaw := (sendLaw_and_receiveLaw hj hresult).1 _ _ rfl
    exact ⟨j, hj, hresult, (hlaw.broken _ rfl).2⟩
  · obtain ⟨j, hj⟩ :
        ∃ j, (start (inSession false) (.send [1] false)).run? (expiring ++ succeedingAnew) = some j :=
      Option.isSome_iff_exists.1 rfl
    have hresult : ((start (inSession false) (.send [1] false)).run? (expiring ++ succeedingAnew)).map
        (fun j => j.operation.result?) = some (some (.ok [])) := rfl
    rw [hj] at hresult
    have hresult := Option.some.inj hresult
    have hlaw := (sendLaw_and_receiveLaw hj hresult).1 _ _ rfl
    exact ⟨j, hj, hresult, hlaw.once _ rfl⟩
  · obtain ⟨j, hj⟩ : ∃ j, (start (inSession true) .receive).run? expiring = some j :=
      Option.isSome_iff_exists.1 rfl
    have hresult : ((start (inSession true) .receive).run? expiring).map (fun j => j.operation.result?)
        = some (some (.error (.timeout collector "receive" 1000))) := rfl
    rw [hj] at hresult
    have hresult := Option.some.inj hresult
    have hlaw := (sendLaw_and_receiveLaw hj hresult).2 rfl
    exact ⟨j, hj, hresult, (hlaw.lost _ rfl rfl).1⟩

end Job

end LogRelay
