import LogRelay.Proofs.Desk.Accord

/-!
# The grammar of the sockets

Whatever batches a link is given, however its sockets answer, and whenever all is called off, what
is asked of each socket is a regular course.

* `Desk.Excused`: why a round may end without a failure;
* `Desk.Accord.traffic`: each socket of a desk, with the call that is under way, has come about
  entry by entry;
* `Desk.courses`: the grammar;
* `Desk.courses_twoSockets`: a run on two sockets, one of which is given up, and the other is in use
  when all is called off.
-/

namespace LogRelay

section

variable {cut : Prop} {offered : List Frames} {log : List Entry} {w : Wire} {ph : Phase}
  {x : Delivery} {c : Call}

/-- A call that is under way, in the phase in which it has begun. -/
theorem Traffic.underway (h : Traffic cut offered log ph) (hcut : cut) {f : Frames}
    (hf : f ∈ offered) {leg : Leg}
    (hc : (ph = .dialing ∧ ∃ a, c = .connect a) ∨ (ph = leg.phase f ∧ c = leg.call f)) :
    ∃ ph', Traffic cut offered (log ++ [.call c none]) ph' ∧ ph'.isHalfway = false := by
  rcases hc with ⟨rfl, a, rfl⟩ | ⟨rfl, rfl⟩
  · exact ⟨.dialing, .refused h a (by simp), rfl⟩
  · exact ⟨.broken, h.lost hf (.inr (.inr ⟨hcut, by simp⟩)), rfl⟩

/-- The next call on a socket is the reply that is due on it. -/
theorem Delivery.awaiting_of_receive (hx : x.Accord w ph) {limit : Duration}
    (hwant : x.want = .call .receive limit) (hu : w.under = some .receive) :
    ph = .awaiting x.prepared.frames := by
  rw [Delivery.want, hx.1.result] at hwant
  rcases hx.2.begun hx.1.goal rfl hwant hu with ⟨-, a, hno⟩ | ⟨hph, hcall⟩
  · exact absurd hno (by simp)
  · rw [hph]
    cases hleg : x.leg with
    | reply => rfl
    | nonce | ciphertext =>
      rw [hleg] at hcall
      exact absurd hcall (by simp [Leg.call])

end

/-! ### What a link is used for -/

namespace Engagement

variable {e : Engagement} {w : Wire} {ph : Phase} {c : Call}

/-- Whether the link has given up its last socket. -/
def hasLetGo : Engagement → Bool
  | idle l => l.session.isNone
  | delivering _ => false
  | running c =>
    match c.stage with
    | .ready l | .preparing l _ | .checking l _ | .handing l _ => l.session.isNone
    | .delivering _ | .closing _ _ => false
    | .finished _ _ => true

theorem Accord.closed_of_hasLetGo (h : e.Accord w ph) (hgone : e.hasLetGo = true) : ph = .closed := by
  have hrests {l : Link} (hl : l.Rests w.called ph) (hnone : l.session.isNone = true) :
      ph = .closed := by
    rw [Link.Rests, Option.isNone_iff_eq_none.1 hnone] at hl
    exact hl
  cases e with
  | idle l => exact hrests h hgone
  | delivering d => exact absurd hgone (by simp [hasLetGo])
  | running c =>
    simp only [Accord, Courier.Accord] at h
    simp only [hasLetGo] at hgone
    cases hs : c.stage with
    | ready | preparing | checking | handing =>
      rw [hs] at h hgone
      exact hrests h hgone
    | delivering | closing =>
      rw [hs] at hgone
      exact absurd hgone (by simp)
    | finished l r =>
      rw [hs] at h
      exact h

/-- When nothing is being delivered, the latest socket is closed or between two rounds, unless all
was called off. -/
theorem Accord.settled (h : e.Accord w ph) :
    w.called = true ∨ e.delivery?.isSome = true ∨ ph = .closed ∨ ph = .ready := by
  have hrests {l : Link} (hl : l.Rests w.called ph) {p : Prop} : w.called = true ∨ p ∨
      ph = .closed ∨ ph = .ready :=
    hl.settled.imp_right .inr
  cases e with
  | idle l => exact hrests h
  | delivering d => exact .inr (.inl rfl)
  | running c =>
    simp only [Accord, Courier.Accord] at h
    simp only [delivery?]
    cases hs : c.stage with
    | ready | preparing | checking | handing =>
      rw [hs] at h
      exact hrests h
    | delivering d => exact .inr (.inl rfl)
    | closing o r =>
      rw [hs] at h
      exact h.2.2.imp_right fun hready => .inr (.inr hready)
    | finished l r =>
      rw [hs] at h
      exact .inr (.inr (.inl h))

/-- Inside a round a batch is being delivered, unless all was called off. -/
theorem Accord.halfway (h : e.Accord w ph) (hhalf : ph.isHalfway = true) :
    w.called = true ∨ e.delivery?.isSome = true := by
  rcases h.settled with hcalled | hx | rfl | rfl
  · exact .inl hcalled
  · exact .inr hx
  · exact absurd hhalf (by simp [Phase.isHalfway])
  · exact absurd hhalf (by simp [Phase.isHalfway])

/-- A call is wanted only while a batch is being delivered. -/
theorem Accord.delivery_of_want {limit : Duration} (h : e.Accord w ph)
    (hwant : e.want = .call c limit) :
    ∃ x, e.delivery? = some x ∧ x.Accord w ph ∧ x.want = .call c limit := by
  cases e with
  | idle l => exact absurd hwant (by simp [want])
  | delivering d => exact ⟨d, rfl, h, hwant⟩
  | running courier =>
    cases hcw : courier.want with
    | link want =>
      simp only [Engagement.want, hcw] at hwant
      rw [hwant] at hcw
      rcases Courier.stage_of_want_link hcw with ⟨d, hs, hd⟩ | ⟨o, r, hs, ho⟩
      · simp only [Accord, Courier.Accord, hs] at h
        exact ⟨d, by simp only [delivery?, hs], h, hd.symm⟩
      · simp only [Accord, Courier.Accord, hs] at h
        rw [Operation.want, h.1] at ho
        exact absurd ho (by simp)
    | batch | nonce | probe | room | nothing =>
      simp only [Engagement.want, hcw] at hwant
      exact absurd hwant (by simp)

end Engagement

/-! ### Each socket -/

namespace Desk

variable {d : Desk} {ph : Phase} {later earlier : List (List Entry)} {log : List Entry} {c : Call}

/-- Why the last round of a socket that has some sockets after it and others before it may end
without a failure: all was called off while it was in use, or the round is under way. -/
def Excused (d : Desk) (later earlier : List (List Entry)) : Prop :=
  d.wire.calledOff = some (earlier.length + 1) ∨ later = [] ∧ d.engagement.delivery?.isSome = true

/-- A call that is under way belongs to the batch that is being delivered. -/
theorem Accord.delivery_of_under (h : d.Accord ph) (hu : d.wire.under = some c) :
    ∃ x limit, d.engagement.delivery? = some x ∧ x.Accord d.wire ph ∧ x.want = .call c limit := by
  obtain ⟨limit, hwant⟩ := h.under c hu
  obtain ⟨x, hx, haccord, hxw⟩ := h.engagement.delivery_of_want hwant
  exact ⟨x, limit, hx, haccord, hxw⟩

/-- A call is under way only on a socket that is not closed. -/
theorem Accord.ne_closed_of_under (h : d.Accord ph) (hu : d.wire.under = some c) : ph ≠ .closed := by
  obtain ⟨x, limit, hx, haccord, hwant⟩ := h.delivery_of_under hu
  rw [Delivery.want, haccord.1.result] at hwant
  rcases haccord.2.begun haccord.1.goal rfl hwant hu with ⟨hph, -⟩ | ⟨hph, -⟩
  · rw [hph]
    simp
  · rw [hph]
    exact (Leg.phase_ne _ _).1

theorem Accord.under_of_sockets (h : d.Accord ph) (hs : d.wire.sockets = []) :
    d.wire.under = none := by
  cases hu : d.wire.under with
  | none => rfl
  | some c => exact absurd (h.phase.unopened hs) (h.ne_closed_of_under hu)

/-- Each socket, with the call that is under way, has come about entry by entry. -/
theorem Accord.traffic (h : d.Accord ph) (hlog : d.wire.logs = later ++ log :: earlier) :
    ∃ ph', Traffic (d.Excused later earlier) d.frames log ph' ∧
      (ph'.isHalfway = true → d.Excused later earlier) ∧
      (later ≠ [] ∨ d.engagement.hasLetGo = true → ph' = .closed) := by
  cases later with
  | cons log' later =>
    -- one of the others: it is closed
    have hs : d.wire.sockets.tail = later ++ log :: earlier := by
      rw [← Wire.tail_logs, hlog]
      rfl
    exact ⟨.closed, (h.phase.others later log earlier hs).mono .inl fun f hf => hf,
      fun hhalf => absurd hhalf (by simp [Phase.isHalfway]), fun _ => rfl⟩
  | nil =>
    obtain ⟨base, hs, hbase⟩ := Wire.latest_of_logs hlog
    have hcut (hc : d.wire.IsCut) : d.Excused [] earlier := by
      rw [Wire.IsCut, hs] at hc
      exact .inl hc
    have htraffic := (h.phase.latest base earlier hs).mono hcut fun f hf => hf
    rcases hbase with ⟨-, rfl⟩ | ⟨c, hu, rfl⟩
    · refine ⟨ph, htraffic, ?_, ?_⟩
      · intro hhalf
        rcases h.engagement.halfway hhalf with hcalled | hx
        · exact hcut (h.phase.isCut hcalled hhalf)
        · exact .inr ⟨rfl, hx⟩
      · intro hgone
        exact h.engagement.closed_of_hasLetGo (hgone.resolve_left fun hno => hno rfl)
    · -- the latest, with a call of the batch that is being delivered
      obtain ⟨x, limit, hx, haccord, hwant⟩ := h.delivery_of_under hu
      have hexcused : d.Excused [] earlier := .inr ⟨rfl, by rw [hx]; rfl⟩
      rw [Delivery.want, haccord.1.result] at hwant
      have hbegun := haccord.2.begun haccord.1.goal rfl hwant hu
      obtain ⟨ph', htraffic', hhalf⟩ := htraffic.underway hexcused (h.frames_mem hx) hbegun
      refine ⟨ph', htraffic', fun _ => hexcused, ?_⟩
      intro hgone
      have hclosed := h.engagement.closed_of_hasLetGo (hgone.resolve_left fun hno => hno rfl)
      exact absurd hclosed (h.ne_closed_of_under hu)

/-- A reply is awaited on the socket that has just taken both frames of the batch. -/
theorem Accord.awaited (h : d.Accord ph) (hlog : d.wire.logs = log :: earlier)
    (hu : d.wire.under = some .receive) : ∃ x served y z, d.engagement.delivery? = some x ∧
      log = served ++ [.call (.send x.prepared.nonce true) (some (.done y)),
        .call (.send x.prepared.ciphertext false) (some (.done z)), .call .receive none] := by
  obtain ⟨x, limit, hx, haccord, hwant⟩ := h.delivery_of_under hu
  have hph := Delivery.awaiting_of_receive haccord hwant hu
  obtain ⟨base, hs, hbase⟩ := Wire.latest_of_logs hlog
  rcases hbase with ⟨hno, -⟩ | ⟨c, hc, rfl⟩
  · exact absurd (hno.symm.trans hu) (by simp)
  · obtain rfl : c = .receive := Option.some.inj (hc.symm.trans hu)
    have hparts := parts_of_traffic (h.phase.latest base earlier hs)
    rw [hph] at hparts
    obtain ⟨served, y, z, -, -, rfl⟩ := hparts
    refine ⟨x, served, y, z, hx, ?_⟩
    rw [List.append_assoc]
    rfl

/-- When nothing is being delivered, no failure is left behind on the latest socket. -/
theorem Accord.settled (h : d.Accord ph) (hlog : d.wire.logs = log :: earlier)
    (hcalled : d.wire.called = false)
    (hnone : d.engagement.delivery? = none) : ∃ e, log.getLast? = some e ∧
    (e = .close ∨ e.succeeded = true) := by
  obtain ⟨base, hs, hbase⟩ := Wire.latest_of_logs hlog
  have htraffic := h.phase.latest base earlier hs
  rcases hbase with ⟨-, rfl⟩ | ⟨c, hu, -⟩
  · rcases h.engagement.settled with hno | hno | rfl | rfl
    · exact absurd (hcalled.symm.trans hno) (by simp)
    · rw [hnone] at hno
      exact absurd hno (by simp)
    · exact ⟨.close, getLast?_of_closed htraffic, .inl rfl⟩
    · obtain ⟨e, hlast, hdone⟩ := getLast?_of_ready htraffic
      exact ⟨e, hlast, .inr hdone⟩
  · obtain ⟨x, limit, hx, -, -⟩ := h.delivery_of_under hu
    exact absurd (hx.symm.trans hnone) (by simp)

/-! ### The grammar -/

variable {keys : Keys} {settings : LinkSettings} {l : Link} {es : List Errand}

/-- A link that was just made has no session. -/
theorem session_of_ofSettings (hl : Link.ofSettings settings = .ok l) : l.session = none := by
  rw [Link.ofSettings] at hl
  split at hl
  · exact absurd hl (by simp)
  · rw [← Except.ok.inj hl]

/-- **Whatever is done at a desk, each socket has a regular course.**  Collectors are tried until
one accepts; then come complete rounds for offered batches; the last round may be unfinished, after
a failure or when all was called off while this socket was in use; and a socket that is given up is
closed as the last thing that happens to it.  So each entry follows upon one that it may follow
upon.  A reply is awaited on the socket that has just taken both frames of the batch, and no failure
is left behind: when nothing is being delivered, a socket that is not closed has done what was last
asked of it. -/
theorem courses (hl : Link.ofSettings settings = .ok l) (h : (start keys l).run? es = some d)
    (hlog : d.wire.logs = later ++ log :: earlier) :
    Entry.IsCourse d.frames (d.Excused later earlier) log ∧ log.IsChain (Entry.Follows d.frames) ∧
      (later ≠ [] ∨ d.engagement.hasLetGo = true → log.getLast? = some .close) ∧
      (later = [] → d.wire.under = some .receive → ∃ x served y z, d.engagement.delivery? = some x ∧
        log = served ++ [.call (.send x.prepared.nonce true) (some (.done y)),
          .call (.send x.prepared.ciphertext false) (some (.done z)), .call .receive none]) ∧
      (later = [] → d.wire.called = false → d.engagement.delivery? = none →
        ∃ e, log.getLast? = some e ∧ (e = .close ∨ e.succeeded = true)) := by
  -- by induction on the run, the link believes of its latest socket what has gone over it
  obtain ⟨ph, hacc⟩ := accord_run? h ⟨.closed, accord_start keys (session_of_ofSettings hl)⟩
  obtain ⟨ph', htraffic, hhalf, hclosed⟩ := hacc.traffic hlog
  refine ⟨isCourse_of_traffic htraffic hhalf, isChain_of_traffic htraffic, ?_, ?_, ?_⟩
  · intro hgone
    have hph := hclosed hgone
    subst hph
    exact getLast?_of_closed htraffic
  · intro hlater hu
    subst hlater
    exact hacc.awaited hlog hu
  · intro hlater hcalled hnone
    subst hlater
    exact hacc.settled hlog hcalled hnone

/-! ### A run on two sockets -/

def soleCollector : LinkSettings := { servers := ⟨[⟨"tcp://collector:5005"⟩], Nat.zero_lt_one⟩ }

/-- The link with one collector. -/
def soleLink : Link where
  servers := soleCollector.servers
  limits := soleCollector.limits
  reconnect := soleCollector.reconnect

/-- A batch with a wire form of three octets. -/
def smallBatch (n : Nat) : PreparedBatch := ⟨⟨n, []⟩, [.ofNat n], [.ofNat n, .ofNat n], .prepared, 0⟩

/-- A call is made and comes to an outcome. -/
def callFor (o : Outcome) : List Errand := [.call, .link (.outcome o)]

/-- A socket is opened, and the collector is chosen. -/
def openSocket : List Errand := [.link (.socket (.ok ())), .link (.picked ⟨"tcp://collector:5005"⟩)]

/-- The first attempt to connect takes too long.  One batch is delivered; the ciphertext of the next
does not go out, and it is sent anew on another socket until all is called off. -/
def twoSockets : List Errand :=
  [.deliver (smallBatch 1)] ++ openSocket ++ callFor .expired ++
    [.link (.rested true), .link (.picked ⟨"tcp://collector:5005"⟩)] ++ callFor (.done []) ++
    callFor (.done []) ++ callFor (.done []) ++ callFor (.done [6]) ++
    [.deliver (smallBatch 2)] ++ callFor (.done []) ++ callFor .expired ++ [.link .closed] ++
    openSocket ++ callFor (.done []) ++ callFor (.done []) ++ [.callOff, .link (.outcome .withheld)]

/-- What is asked of the first socket. -/
def firstSocket : List Entry :=
  [.call (.connect ⟨"tcp://collector:5005"⟩) (some .expired),
    .call (.connect ⟨"tcp://collector:5005"⟩) (some (.done [])),
    .call (.send [1] true) (some (.done [])), .call (.send [1, 1] false) (some (.done [])),
    .call .receive (some (.done [6])), .call (.send [2] true) (some (.done [])),
    .call (.send [2, 2] false) (some .expired), .close]

/-- What is asked of the second. -/
def secondSocket : List Entry :=
  [.call (.connect ⟨"tcp://collector:5005"⟩) (some (.done [])),
  .call (.send [2] true) (some (.done []))]

theorem courses_twoSockets :
    ∃ d, Link.ofSettings soleCollector = .ok soleLink ∧
      (start ⟨.zero, .zero⟩ soleLink).run? twoSockets = some d ∧
      d.wire.logs = [secondSocket] ++ firstSocket :: [] ∧ ¬ d.Excused [secondSocket] [] ∧
      Entry.IsCourse d.frames (d.Excused [secondSocket] []) firstSocket ∧
      firstSocket.IsChain (Entry.Follows d.frames) ∧ firstSocket.getLast? = some .close ∧
      Entry.IsCourse d.frames (d.Excused [] [firstSocket]) secondSocket := by
  obtain ⟨d, hd⟩ : ∃ d, (start ⟨.zero, .zero⟩ soleLink).run? twoSockets = some d :=
    Option.isSome_iff_exists.1 rfl
  have hlogs : ((start ⟨.zero, .zero⟩ soleLink).run? twoSockets).map (fun d => d.wire.logs)
      = some [secondSocket, firstSocket] := rfl
  have hcut : ((start ⟨.zero, .zero⟩ soleLink).run? twoSockets).map (fun d => d.wire.calledOff)
      = some (some 2) := rfl
  rw [hd] at hlogs hcut
  have hfirst : d.wire.logs = [secondSocket] ++ firstSocket :: [] := Option.some.inj hlogs
  have hlatest : d.wire.logs = [] ++ secondSocket :: [firstSocket] := hfirst
  have hc : d.wire.calledOff = some 2 := Option.some.inj hcut
  have hmade : Link.ofSettings soleCollector = .ok soleLink := rfl
  obtain ⟨hcourse, hchain, hclosed, -, -⟩ := courses hmade hd hfirst
  obtain ⟨hsecond, -, -, -, -⟩ := courses hmade hd hlatest
  refine ⟨d, hmade, hd, hfirst, ?_, hcourse, hchain, hclosed (.inl (by simp)), hsecond⟩
  rintro (hno | ⟨hno, -⟩)
  · exact absurd (hc.symm.trans hno) (by simp)
  · exact absurd hno (by simp)

end Desk

end LogRelay
