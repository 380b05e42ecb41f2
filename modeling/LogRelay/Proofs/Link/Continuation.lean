import LogRelay.Proofs.Runs
import LogRelay.Proofs.Wire.Basic

/-!
# Messages of several frames on a link

Whoever uses a link directly asks for one operation after the other and lets each come to its end;
nothing is called off.  A frame with more to come begins a message that has to go on on the same socket.
The link remembers this with its session, and forgets it with the session: what happens to the rest of
the message depends on what else was asked for in between.

* `Wire.taken`: the frames that sockets have taken, in turn;
* `Caller.move?`, `Caller.run?`: steps and runs of whoever uses a link;
* `Caller.InMessage`: a frame with more to come was taken, and since then only a session was asked for;
* `Caller.Kept`, `kept_run?`: it is exactly then that the link remembers it;
* `Caller.Sending`, `sending_run?`: how far a frame has come;
* `Caller.continues`: **inside a message the next frame goes out on the same socket, or the send is
  interrupted;** otherwise it is never interrupted;
* `Caller.lone_tail`: after a reply was awaited in vain, the rest of a message goes out on another socket.
-/

namespace LogRelay

/-! ### The frames that sockets have taken -/

/-- A frame that a socket has taken, with the number of the socket and whether more is to come. -/
structure Taken where
  socket : Nat
  frame : Bytes
  more : Bool
deriving DecidableEq

def Entry.taken? (socket : Nat) : Entry → Option Taken
  | .call (.send frame more) (some (.done _)) => some ⟨socket, frame, more⟩
  | _ => none

/-- The frames that sockets have taken; the latest socket comes first, and they count from one. -/
def takenOn : List (List Entry) → List Taken
  | [] => []
  | log :: earlier => takenOn earlier ++ log.filterMap (Entry.taken? (earlier.length + 1))

namespace Wire

def taken (w : Wire) : List Taken := takenOn w.sockets

/-- The frame that the latest socket takes with an answer. -/
def takes? (w : Wire) : LinkAnswer → Option Taken
  | .outcome o =>
    if w.sockets.isEmpty then none
    else w.under.bind fun c => (Entry.call c (some o)).taken? w.sockets.length
  | _ => none

variable {w : Wire} {a : LinkAnswer} {place : Nat}

theorem taken_record {log : List Entry} {earlier : List (List Entry)} (hw : w.sockets = log :: earlier)
    (e : Entry) : (w.record e).taken = w.taken ++ (e.taken? w.sockets.length).toList := by
  have hrecord : (w.record e).sockets = (log ++ [e]) :: earlier := by rw [record, hw]
  rw [taken, taken, hrecord, hw, takenOn, takenOn, List.filterMap_append, ← List.append_assoc]
  rfl

theorem taken_of_sockets {w' : Wire} (h : w'.sockets = w.sockets) : w'.taken = w.taken := by
  rw [taken, taken, h]

/-- What an answer adds to the frames that were taken. -/
theorem taken_note (w : Wire) (place : Nat) (a : LinkAnswer) :
    (w.note place a).taken = w.taken ++ (w.takes? a).toList := by
  cases a with
  | picked | rested => exact (List.append_nil w.taken).symm
  | socket r =>
    cases r with
    | ok u => rfl
    | error cause => exact (List.append_nil w.taken).symm
  | closed =>
    cases hw : w.sockets with
    | nil =>
      have hsame : (w.note place .closed).sockets = w.sockets := by simp only [note, record, hw]
      exact (taken_of_sockets hsame).trans (List.append_nil w.taken).symm
    | cons log earlier => exact taken_record hw .close
  | outcome o =>
    cases hu : w.under with
    | none =>
      rw [note_outcome_of_none hu, takes?, hu, Option.bind_none, ite_self]
      exact (List.append_nil w.taken).symm
    | some c =>
      obtain ⟨htally, -⟩ := sockets_tally w place c o
      have hnote : (w.note place (.outcome o)).taken
          = ((w.tally place c o).record (.call c (some o))).taken := by
        simp only [note, hu]
        rfl
      rw [hnote, takes?, hu, Option.bind_some]
      cases hw : w.sockets with
      | nil =>
        have hsame : (w.tally place c o).record (.call c (some o)) = w.tally place c o := by
          rw [record, htally, hw]
        rw [hsame, taken_of_sockets htally]
        exact (List.append_nil w.taken).symm
      | cons log earlier =>
        rw [taken_record (htally.trans hw), taken_of_sockets htally, htally, hw]
        rfl

end Wire

/-- An operation that goes on has not ended. -/
theorem Operation.Turn.result?_eq_none {o o' : Operation} {a : LinkAnswer} (h : o.Turn a o') :
    o.result? = none := by
  rw [Operation.result?]
  cases h with
  | opened hs | refused hs | chosen hs | connected hs | connectFailed hs | connectCancelled hs
  | rested hs | restCancelled hs | released hs | sent hs | sendFailed hs | sendBroken hs | received hs
  | receiveFailed hs | useCancelled hs | renewed hs | ended hs => rw [hs]

/-! ### Whoever uses a link -/

/-- Whether a session is in the middle of a message. -/
def Link.midMessage (l : Link) : Bool := l.session.any Session.midMessage

/-- A link with its sockets, and the operation that was asked for last. -/
structure Caller where
  operation : Operation
  wire : Wire := {}
  /-- What was asked for since a socket last took a frame. -/
  since : List Goal := []

/-- An operation is asked for, its call begins, or it is answered. -/
inductive Deed where
  | ask (g : Goal)
  | call
  | link (a : LinkAnswer)

def Deed.isAsk : Deed → Bool
  | ask _ => true
  | call | link _ => false

namespace Caller

/-- A link that was just made, as after an operation that has ended. -/
def start (servers : AddressSet) (limits : Limits) (reconnect : Reconnect) : Caller :=
  { operation := ⟨{ servers, limits, reconnect }, .close, .finished (.ok [])⟩ }

/-- What comes of a step, if it is possible.  An operation can be asked for when the last has ended. -/
def move? (c : Caller) : Deed → Option Caller
  | .ask g =>
    if c.operation.result?.isSome then
      some { c with operation := (Operation.start c.operation.link g).next, since := c.since ++ [g] }
    else none
  | .call => (c.wire.begin? c.operation.want).map fun wire => { c with wire }
  | .link a =>
    if c.wire.possible c.operation.want a then
      some {
        operation := (c.operation.answer a).next
        wire := c.wire.note 0 a
        since := if (c.wire.takes? a).isSome then [] else c.since }
    else none

/-- What comes of several steps, if each is possible. -/
abbrev run? : Caller → List Deed → Option Caller := runSteps move?

/-- A frame with more to come was the last that was taken, and since then only a session was asked
for. -/
def InMessage (c : Caller) : Prop :=
  (∃ t ∈ c.wire.taken.getLast?, t.more = true) ∧ ∀ g ∈ c.since, g = .ensure

variable {c c' : Caller} {g : Goal} {a : LinkAnswer}

theorem of_move?_ask (h : c.move? (.ask g) = some c') :
    (∃ r, c.operation.stage = .finished r) ∧
      c' = { c with operation := (Operation.start c.operation.link g).next, since := c.since ++ [g] } := by
  rw [move?] at h
  split at h
  next hended =>
    refine ⟨?_, (Option.some.inj h).symm⟩
    cases hs : c.operation.stage with
    | finished r => exact ⟨r, rfl⟩
    | opening | choosing | connecting | resting | releasing | «using» | ending =>
      rw [Operation.result?, hs] at hended
      exact absurd hended (by simp)
  next => exact absurd h (by simp)

theorem of_move?_link (h : c.move? (.link a) = some c') :
    c.wire.possible c.operation.want a = true ∧ c.operation.Turn a c'.operation ∧
      c'.wire = c.wire.note 0 a ∧ c'.since = if (c.wire.takes? a).isSome then [] else c.since := by
  rw [move?] at h
  split at h
  next hp =>
    obtain rfl := Option.some.inj h
    exact ⟨hp, Operation.turn_answer (Wire.fits_of_possible hp), rfl, rfl⟩
  next => exact absurd h (by simp)

theorem of_move?_call (h : c.move? .call = some c') :
    ∃ k limit, c.operation.want = .call k limit ∧
      c' = { c with wire := { c.wire with under := some k } } := by
  rw [move?] at h
  obtain ⟨wire, hbegin, rfl⟩ := Option.map_eq_some_iff.1 h
  obtain ⟨k, limit, hwant, -, rfl⟩ := Wire.of_begin? hbegin
  exact ⟨k, limit, hwant, rfl⟩

/-- To ask for more than a session is to leave a message, and to ask for a session is not. -/
theorem inMessage_ask (hm : c.move? (.ask g) = some c') :
    c'.InMessage ↔ c.InMessage ∧ g = .ensure := by
  obtain ⟨-, rfl⟩ := of_move?_ask hm
  have hsince : (∀ g' ∈ c.since ++ [g], g' = .ensure) ↔ (∀ g' ∈ c.since, g' = .ensure) ∧ g = .ensure := by
    rw [List.forall_mem_append, List.forall_mem_singleton]
  exact (and_congr_right fun _ => hsince).trans and_assoc.symm

/-! ### What the link remembers -/

/-- Where an operation stands with its session and its socket. -/
def Seated (c : Caller) : Prop :=
  match c.operation.stage with
  | .opening | .ending .again => c.operation.link.session = none ∧ c.operation.goal ≠ .close
  | .choosing _ | .connecting _ _ | .resting _ =>
    c.operation.link.session = none ∧ c.operation.goal ≠ .close ∧ c.wire.sockets ≠ []
  | .releasing | .ending (.stop _ _) => c.operation.link.session = none
  | .using s => c.operation.link.session = some s ∧ c.wire.sockets ≠ []
  | .finished _ => c.operation.link.session ≠ none → c.wire.sockets ≠ []

/-- The link remembers a message exactly when it is in one; and the message is on the latest socket. -/
structure Kept (c : Caller) : Prop where
  uncalled : c.wire.called = false
  under : ∀ k, c.wire.under = some k → ∃ limit, c.operation.want = .call k limit
  seated : c.Seated
  /-- Whoever asked for more than a session has left the message, as long as this is not done. -/
  running : c.operation.result? = none → ¬ c.InMessage
  ended : c.operation.result? ≠ none → (c.InMessage ↔ c.operation.link.midMessage = true)
  latest : c.InMessage → ∀ t ∈ c.wire.taken.getLast?, t.socket = c.wire.sockets.length

/-- Nothing but a frame that was sent with success is taken. -/
theorem takes?_eq_none {w : Wire} (h : ∀ frame more x, w.under = some (.send frame more) →
    a ≠ .outcome (.done x)) : w.takes? a = none := by
  cases a with
  | socket | picked | rested | closed => rfl
  | outcome o =>
    rw [Wire.takes?]
    cases hu : w.under with
    | none => exact ite_self none
    | some k =>
      cases k with
      | connect | receive => exact ite_self none
      | send frame more =>
        cases o with
        | done x => exact absurd rfl (h frame more x hu)
        | failed | expired | withheld | abandoned => exact ite_self none

/-- The frame that was sent is the one that is taken. -/
theorem Kept.takes?_sent (h : c.Kept) {s : Session} {frame : Bytes} {more : Bool} {x : Bytes}
    (hs : c.operation.stage = .using s) (hg : c.operation.goal = .send frame more)
    (hp : c.wire.possible c.operation.want (.outcome (.done x)) = true) :
    c.wire.takes? (.outcome (.done x)) = some ⟨c.wire.sockets.length, frame, more⟩ := by
  obtain ⟨-, k, hu⟩ := Wire.of_possible_done hp
  obtain ⟨limit, hwant⟩ := h.under k hu
  have hk : k = .send frame more := by
    simp only [Operation.want, hs, hg, Operation.callOf] at hwant
    exact (LinkWant.call.inj hwant).1.symm
  have hseated := h.seated
  simp only [Seated, hs] at hseated
  rw [Wire.takes?, hu, hk, if_neg (by simpa using hseated.2)]
  rfl

theorem Kept.under_eq (h : c.Kept) {k k' : Call} {limit : Duration} (hu : c.wire.under = some k)
    (hwant : c.operation.want = .call k' limit) : k = k' := by
  obtain ⟨limit', hk⟩ := h.under k hu
  exact (LinkWant.call.inj (hk.symm.trans hwant)).1

/-- **Either a frame was sent and the link remembers whether more is to come, or no frame was taken**,
and then an operation that ends leaves no unfinished message behind. -/
theorem Kept.turn_cases {o' : Operation} (h : c.Kept)
    (hp : c.wire.possible c.operation.want a = true) (ht : c.operation.Turn a o') :
    (∃ frame more x, a = .outcome (.done x) ∧ o'.result? = some (.ok []) ∧
      o'.link.midMessage = more ∧ c.wire.takes? a = some ⟨c.wire.sockets.length, frame, more⟩) ∨
    c.wire.takes? a = none ∧ (o'.result? ≠ none → o'.link.midMessage = false) := by
  have hseated := h.seated
  -- nothing is called off, so a call that is under way is never given up
  have hgoes {r : Outcome} (hr : r.isCallOff = true) (ha : a = .outcome r) : False := by
    have hcalled := Wire.called_of_isCallOff hp (by rw [ha]; exact hr)
    exact absurd (h.uncalled.symm.trans hcalled) (by simp)
  have hfails {r : Outcome} (hr : r.isFailure = true) : c.wire.takes? (.outcome r) = none := by
    refine takes?_eq_none fun frame more x _ hdone => ?_
    rw [LinkAnswer.outcome.inj hdone] at hr
    exact absurd hr (by simp [Outcome.isFailure])
  cases ht with
  | sent hs hg x => exact .inl ⟨_, _, x, rfl, rfl, rfl, h.takes?_sent hs hg hp⟩
  | @connected e n hs x =>
    refine .inr ⟨takes?_eq_none fun frame more y hu => ?_, fun _ => rfl⟩
    have hwant : c.operation.want = .call (.connect e) c.operation.link.limits.connect := by
      rw [Operation.want, hs]
    exact absurd (h.under_eq hu hwant) (by simp)
  | @received s hs hg x =>
    refine .inr ⟨takes?_eq_none fun frame more y hu => ?_, fun _ => rfl⟩
    have hwant : c.operation.want = .call .receive c.operation.link.limits.receive := by
      simp only [Operation.want, hs, hg, Operation.callOf]
    exact absurd (h.under_eq hu hwant) (by simp)
  | connectFailed hs hr => exact .inr ⟨hfails hr, fun hno => absurd rfl hno⟩
  | sendFailed hs hg hm hr => exact .inr ⟨hfails hr, fun hno => absurd rfl hno⟩
  | sendBroken hs hg hm hr notices => exact .inr ⟨hfails hr, fun hno => absurd rfl hno⟩
  | receiveFailed hs hg hr notices hf => exact .inr ⟨hfails hr, fun hno => absurd rfl hno⟩
  | connectCancelled hs hr => exact (hgoes hr rfl).elim
  | useCancelled hs hr => exact (hgoes hr rfl).elim
  | refused hs cause =>
    simp only [Seated, hs] at hseated
    refine .inr ⟨rfl, fun _ => ?_⟩
    rw [Link.midMessage, hseated.1]
    rfl
  | released hs | ended hs =>
    simp only [Seated, hs] at hseated
    refine .inr ⟨rfl, fun _ => ?_⟩
    rw [Link.midMessage, hseated]
    rfl
  | opened | chosen | rested | restCancelled | renewed => exact .inr ⟨rfl, fun hno => absurd rfl hno⟩

/-- Asking for a session does not end at once only if there is none; and what ends at once otherwise is
closing where there is no session. -/
theorem mark_start (l : Link) (g : Goal) :
    (g = .ensure → (Operation.start l g).next.result? = none → l.midMessage = false) ∧
    ((Operation.start l g).next.result? ≠ none →
      ((Operation.start l g).next.link.midMessage = true ↔ l.midMessage = true ∧ g = .ensure)) := by
  cases hl : l.session with
  | none =>
    have hmid : l.midMessage = false := by rw [Link.midMessage, hl]; rfl
    rw [Operation.start_of_none hl]
    exact ⟨fun _ _ => hmid, fun _ => by simp [hmid]⟩
  | some s =>
    cases g with
    | close =>
      rw [Operation.start_close_of_some hl]
      exact ⟨fun hno => absurd hno (by simp), fun hno => absurd rfl hno⟩
    | ensure =>
      rw [Operation.start_of_some hl (by simp)]
      exact ⟨fun _ hno => absurd hno (by simp [Operation.result?, Operation.stageWith]), fun _ => by simp⟩
    | send frame more =>
      rw [Operation.start_of_some hl (by simp)]
      exact ⟨fun hno => absurd hno (by simp), fun hno => absurd rfl hno⟩
    | receive =>
      rw [Operation.start_of_some hl (by simp)]
      exact ⟨fun hno => absurd hno (by simp), fun hno => absurd rfl hno⟩

theorem seated_ask (h : c.Seated) (hm : c.move? (.ask g) = some c') : c'.Seated := by
  obtain ⟨⟨r, hs⟩, rfl⟩ := of_move?_ask hm
  simp only [Seated, hs] at h
  cases hl : c.operation.link.session with
  | none =>
    simp only [Seated, Operation.start_of_none hl]
    cases g with
    | close => exact fun hno => absurd hl hno
    | ensure | send | receive => exact ⟨hl, by simp⟩
  | some s =>
    have hsockets := h (by rw [hl]; simp)
    cases g with
    | close => simp only [Seated, Operation.start_close_of_some hl]
    | ensure =>
      simp only [Seated, Operation.start_of_some hl (g := .ensure) (by simp)]
      exact fun _ => hsockets
    | send frame more =>
      simp only [Seated, Operation.start_of_some hl (g := .send frame more) (by simp)]
      exact ⟨hl, hsockets⟩
    | receive =>
      simp only [Seated, Operation.start_of_some hl (g := .receive) (by simp)]
      exact ⟨hl, hsockets⟩

theorem seated_link (h : c.Seated) (hm : c.move? (.link a) = some c') : c'.Seated := by
  obtain ⟨hp, ht, hw, -⟩ := of_move?_link hm
  rw [Seated] at h ⊢
  rw [hw]
  generalize c'.operation = o' at ht ⊢
  cases ht with
  | opened hs =>
    rw [hs] at h
    exact ⟨h.1, h.2, List.cons_ne_nil _ _⟩
  | refused hs cause =>
    rw [hs] at h
    exact fun hno => absurd h.1 hno
  | chosen hs ha =>
    rw [hs] at h
    exact h
  | connected hs x =>
    rw [hs] at h
    obtain ⟨-, hgoal, hsockets⟩ := h
    cases hg : c.operation.goal with
    | close => exact absurd hg hgoal
    | ensure => exact fun _ => Wire.sockets_note_ne hsockets
    | send | receive => exact ⟨rfl, Wire.sockets_note_ne hsockets⟩
  | connectFailed hs hr =>
    rw [hs] at h
    exact ⟨h.1, h.2.1, Wire.sockets_note_ne h.2.2⟩
  | connectCancelled hs hr | restCancelled hs =>
    rw [hs] at h
    exact h.1
  | rested hs =>
    rw [hs] at h
    exact h
  | released hs | ended hs =>
    rw [hs] at h
    exact fun hno => absurd h hno
  | sent hs hg x | received hs hg x | useCancelled hs hr =>
    rw [hs] at h
    exact fun _ => Wire.sockets_note_ne h.2
  | sendFailed hs hg hm hr => exact ⟨rfl, by simp [hg]⟩
  | sendBroken | receiveFailed => rfl
  | renewed hs =>
    rw [hs] at h
    exact h

theorem kept_start (servers : AddressSet) (limits : Limits) (reconnect : Reconnect) :
    (start servers limits reconnect).Kept where
  uncalled := rfl
  under := fun k hk => absurd hk (by simp [start])
  seated := fun hno => absurd rfl hno
  running := fun hno => absurd hno (by simp [start, Operation.result?])
  ended := fun _ => ⟨fun h => absurd h.1 (by simp [start, Wire.taken, takenOn]),
    fun h => absurd h (by simp [start, Link.midMessage])⟩
  latest := fun h => absurd h.1 (by simp [start, Wire.taken, takenOn])

theorem kept_ask (h : c.Kept) (hm : c.move? (.ask g) = some c') : c'.Kept := by
  have hseated := seated_ask h.seated hm
  have hin := inMessage_ask hm
  obtain ⟨⟨r, hs⟩, rfl⟩ := of_move?_ask hm
  have hended : c.operation.result? ≠ none := by simp [Operation.result?, hs]
  have hunder (k : Call) : c.wire.under ≠ some k := by
    intro hk
    obtain ⟨limit, hwant⟩ := h.under k hk
    rw [Operation.want, hs] at hwant
    exact absurd hwant (by simp)
  have hmark := mark_start c.operation.link g
  refine ⟨h.uncalled, fun k hk => absurd hk (hunder k), hseated, fun hrun hin' => ?_, fun hend => ?_,
    fun hin' => h.latest (hin.1 hin').1⟩
  · obtain ⟨hbefore, rfl⟩ := hin.1 hin'
    exact absurd ((h.ended hended).1 hbefore) (by simp [hmark.1 rfl hrun])
  · rw [hin, h.ended hended]
    exact (hmark.2 hend).symm

theorem kept_link (h : c.Kept) (hm : c.move? (.link a) = some c') : c'.Kept := by
  have hseated := seated_link h.seated hm
  obtain ⟨hp, ht, hw, hsince⟩ := of_move?_link hm
  have hrunning := ht.result?_eq_none
  have huncalled : c'.wire.called = false := by rw [hw, Wire.called_note, h.uncalled]
  have hunder (k : Call) : c'.wire.under ≠ some k := by
    rw [hw, Wire.under_note hp h.under]
    simp
  have htaken := Wire.taken_note c.wire 0 a
  rw [← hw] at htaken
  rcases h.turn_cases hp ht with ⟨frame, more, x, rfl, hr, hmid, htakes⟩ | ⟨htakes, hmid⟩
  · rw [htakes] at htaken hsince
    have hlast : c'.wire.taken.getLast? = some ⟨c.wire.sockets.length, frame, more⟩ := by
      rw [htaken, Option.toList_some, List.getLast?_concat]
    have hin : c'.InMessage ↔ more = true := by
      rw [InMessage, hlast, hsince]
      simp
    refine ⟨huncalled, fun k hk => absurd hk (hunder k), hseated, fun hno => ?_, fun _ => ?_,
      fun _ t ht => ?_⟩
    · exact absurd (hr.symm.trans hno) (by simp)
    · rw [hin, hmid]
    · rw [hlast] at ht
      rw [← Option.some.inj ht, hw, Wire.length_note (by simp)]
  · rw [htakes] at htaken hsince
    -- no frame was taken: the message was left before, when this operation was asked for
    have hout : ¬ c'.InMessage := by
      intro hin
      refine h.running hrunning ?_
      rw [InMessage, htaken, hsince, Option.toList_none, List.append_nil] at hin
      exact hin
    refine ⟨huncalled, fun k hk => absurd hk (hunder k), hseated, fun _ => hout, fun hended => ?_,
      fun hin => absurd hin hout⟩
    exact ⟨fun hin => absurd hin hout, fun hno => absurd hno (by simp [hmid hended])⟩

theorem kept_move? {d : Deed} (h : c.Kept) (hm : c.move? d = some c') : c'.Kept := by
  cases d with
  | ask g => exact kept_ask h hm
  | link a => exact kept_link h hm
  | call =>
    obtain ⟨k, limit, hwant, rfl⟩ := of_move?_call hm
    refine ⟨h.uncalled, fun k' hk' => ?_, h.seated, h.running, h.ended, h.latest⟩
    exact ⟨limit, Option.some.inj hk' ▸ hwant⟩

theorem kept_run? {servers : AddressSet} {limits : Limits} {reconnect : Reconnect} {ds : List Deed}
    (h : (start servers limits reconnect).run? ds = some c) : c.Kept :=
  runSteps_induction (fun _ _ _ hc hm => kept_move? hc hm) h (kept_start servers limits reconnect)

/-! ### A frame on its way -/

/-- How a frame has fared that was asked to be sent: it was taken, inside a message by the socket that was
the latest then; or it was not, inside a message because the session was lost, and otherwise because there
was no socket to be had. -/
def Fared (before : Caller) (frame : Bytes) (more : Bool) (c : Caller) (r : LinkResult) : Prop :=
  (r = .ok [] ∧ ∃ n, c.wire.taken = before.wire.taken ++ [⟨n, frame, more⟩] ∧
    (before.operation.link.midMessage = true → n = before.wire.sockets.length)) ∨
  c.wire.taken = before.wire.taken ∧
    (before.operation.link.midMessage = true ∧ (∃ e, r = .error (.interrupted e)) ∨
      before.operation.link.midMessage = false ∧ ∃ cause, r = .error (.socket cause))

/-- How far a frame has come that was asked to be sent.  Inside a message no other socket is sought. -/
def Sending (before : Caller) (frame : Bytes) (more : Bool) (c : Caller) : Prop :=
  c.operation.goal = .send frame more ∧
  match c.operation.stage with
  | .opening | .choosing _ | .connecting _ _ | .resting _ | .ending .again =>
    before.operation.link.midMessage = false ∧ c.wire.taken = before.wire.taken
  | .using s =>
    s.midMessage = before.operation.link.midMessage ∧ c.wire.taken = before.wire.taken ∧
      (before.operation.link.midMessage = true →
        c.wire.sockets.length = before.wire.sockets.length)
  | .ending (.stop _ r) | .finished r => Fared before frame more c r
  | .releasing => False

variable {before : Caller} {frame : Bytes} {more : Bool}

theorem sending_ask (hm : c.move? (.ask (.send frame more)) = some c') : Sending c frame more c' := by
  obtain ⟨-, rfl⟩ := of_move?_ask hm
  cases hl : c.operation.link.session with
  | none =>
    have hmid : c.operation.link.midMessage = false := by rw [Link.midMessage, hl]; rfl
    simp only [Sending, Operation.start_of_none hl, Operation.stageWithout]
    exact ⟨trivial, hmid, trivial⟩
  | some s =>
    have hmid : c.operation.link.midMessage = s.midMessage := by rw [Link.midMessage, hl]; rfl
    simp only [Sending, Operation.start_of_some hl (g := .send frame more) (by simp), Operation.stageWith]
    exact ⟨trivial, hmid.symm, trivial, fun _ => trivial⟩

theorem sending_link (hkept : c.Kept) (h : Sending before frame more c)
    (hm : c.move? (.link a) = some c') : Sending before frame more c' := by
  obtain ⟨hp, ht, hw, -⟩ := of_move?_link hm
  obtain ⟨hgoal, h⟩ := h
  refine ⟨(Operation.goal_turn ht).trans hgoal, ?_⟩
  have hlength (ha : ∀ r, a ≠ .socket r) : c'.wire.sockets.length = c.wire.sockets.length := by
    rw [hw, Wire.length_note ha]
  have htaken : c'.wire.taken = c.wire.taken ++ (c.wire.takes? a).toList := by
    rw [hw, Wire.taken_note]
  -- as long as the frame was not sent, none is taken
  have hsame (hno : c'.operation.result? ≠ some (.ok [])) : c'.wire.taken = c.wire.taken := by
    rcases hkept.turn_cases hp ht with ⟨-, -, -, -, hok, -⟩ | ⟨hnone, -⟩
    · exact absurd hok hno
    · rw [htaken, hnone, Option.toList_none, List.append_nil]
  have hnever (hcall : a.isCallOff = true) : False :=
    absurd (hkept.uncalled.symm.trans (Wire.called_of_isCallOff hp hcall)) (by simp)
  generalize ho : c'.operation = o' at ht hsame ⊢
  cases ht with
  | opened hs =>
    rw [hs] at h
    exact ⟨h.1, (hsame (by simp [Operation.result?])).trans h.2⟩
  | refused hs cause =>
    rw [hs] at h
    exact .inr ⟨(hsame (by simp [Operation.result?])).trans h.2, .inr ⟨h.1, cause, rfl⟩⟩
  | chosen hs ha =>
    rw [hs] at h
    exact ⟨h.1, (hsame (by simp [Operation.result?])).trans h.2⟩
  | connected hs x =>
    rw [hs] at h
    simp only [hgoal, Operation.stageWith] at hsame ⊢
    refine ⟨h.1.symm, (hsame (by simp [Operation.result?])).trans h.2, fun hmid => ?_⟩
    exact absurd (h.1.symm.trans hmid) (by simp)
  | connectFailed hs hr =>
    rw [hs] at h
    exact ⟨h.1, (hsame (by simp [Operation.result?])).trans h.2⟩
  | connectCancelled hs hr | useCancelled hs hr => exact (hnever hr).elim
  | rested hs =>
    rw [hs] at h
    exact ⟨h.1, (hsame (by simp [Operation.result?])).trans h.2⟩
  | restCancelled hs => exact (hnever rfl).elim
  | released hs =>
    rw [hs] at h
    exact h.elim
  | sent hs hg x =>
    obtain ⟨rfl, rfl⟩ := Goal.send.inj (hg.symm.trans hgoal)
    rw [hs] at h
    refine .inl ⟨rfl, c.wire.sockets.length, ?_, h.2.2⟩
    rw [htaken, hkept.takes?_sent hs hg hp, h.2.1]
    rfl
  | sendFailed hs hg hmid hr =>
    rw [hs] at h
    exact ⟨h.1.symm.trans hmid, (hsame (by simp [Operation.result?])).trans h.2.1⟩
  | @sendBroken s _ _ hs hg hmid r hr notices =>
    rw [hs] at h
    exact .inr ⟨(hsame (by simp [Operation.result?])).trans h.2.1,
      .inl ⟨h.1.symm.trans hmid, s.address, rfl⟩⟩
  | received hs hg x => exact absurd (hg.symm.trans hgoal) (by simp)
  | receiveFailed hs hg hr notices hf => exact absurd (hg.symm.trans hgoal) (by simp)
  | renewed hs =>
    rw [hs] at h
    exact ⟨h.1, (hsame (by simp [Operation.result?])).trans h.2⟩
  | ended hs =>
    rw [hs] at h
    have hstill : c'.wire.taken = c.wire.taken := htaken.trans (List.append_nil _)
    simp only [Fared, hstill]
    exact h

theorem sending_run? {ds : List Deed} (hds : ∀ d ∈ ds, d.isAsk = false) (h : c.run? ds = some c')
    (hc : c.Kept ∧ Sending before frame more c) : c'.Kept ∧ Sending before frame more c' := by
  refine runSteps_induction_of_mem (P := fun c => c.Kept ∧ Sending before frame more c) ?_ h hc
  intro d hd c c' ⟨hkept, hsending⟩ hm
  refine ⟨kept_move? hkept hm, ?_⟩
  cases d with
  | ask g => exact absurd (hds _ hd) (by simp [Deed.isAsk])
  | link a => exact sending_link hkept hsending hm
  | call =>
    obtain ⟨k, limit, -, rfl⟩ := of_move?_call hm
    exact hsending

/-- **The rest of a message.**  Let a frame be sent after any run.  If the last frame that was taken had more
to come, and since then only a session was asked for, the frame is taken by the same socket, or the send is
interrupted and no socket takes it.  Otherwise the send is not interrupted: the frame is taken, or there
is no socket to be had. -/
theorem continues {servers : AddressSet} {limits : Limits} {reconnect : Reconnect} {ds ds' : List Deed}
    {r : LinkResult} (h : (start servers limits reconnect).run? ds = some c)
    (hsend : c.run? (.ask (.send frame more) :: ds') = some c') (hds : ∀ d ∈ ds', d.isAsk = false)
    (hr : c'.operation.result? = some r) :
    (c.InMessage → ∀ t ∈ c.wire.taken.getLast?,
      (r = .ok [] ∧ c'.wire.taken = c.wire.taken ++ [⟨t.socket, frame, more⟩]) ∨
      (∃ e, r = .error (.interrupted e)) ∧ c'.wire.taken = c.wire.taken) ∧
    (¬ c.InMessage →
      (r = .ok [] ∧ ∃ n, c'.wire.taken = c.wire.taken ++ [⟨n, frame, more⟩]) ∨
      (∃ cause, r = .error (.socket cause)) ∧ c'.wire.taken = c.wire.taken) := by
  have hkept := kept_run? h
  obtain ⟨c₁, hask, hrun⟩ := Option.bind_eq_some_iff.1 hsend
  have hended : c.operation.result? ≠ none := by
    obtain ⟨⟨r₀, hs⟩, -⟩ := of_move?_ask hask
    simp [Operation.result?, hs]
  have hmark := hkept.ended hended
  obtain ⟨-, -, hfared⟩ := sending_run? hds hrun ⟨kept_move? hkept hask, sending_ask hask⟩
  have hfared : Fared c frame more c' r := by
    rw [Operation.result?] at hr
    cases hs : c'.operation.stage with
    | finished r' =>
      rw [hs] at hfared hr
      obtain rfl := Option.some.inj hr
      exact hfared
    | opening | choosing | connecting | resting | releasing | «using» | ending =>
      rw [hs] at hr
      exact absurd hr (by simp)
  refine ⟨fun hin t ht => ?_, fun hout => ?_⟩
  · have hmid := hmark.1 hin
    rcases hfared with ⟨hok, n, htaken, hn⟩ | ⟨htaken, ⟨-, hbroken⟩ | ⟨hno, -⟩⟩
    · rw [hkept.latest hin t ht, ← hn hmid]
      exact .inl ⟨hok, htaken⟩
    · exact .inr ⟨hbroken, htaken⟩
    · exact absurd (hmid.symm.trans hno) (by simp)
  · have hmid : ¬ c.operation.link.midMessage = true := fun hmid => hout (hmark.2 hmid)
    rcases hfared with ⟨hok, n, htaken, -⟩ | ⟨htaken, ⟨hno, -⟩ | ⟨-, hfailed⟩⟩
    · exact .inl ⟨hok, n, htaken⟩
    · exact absurd hno hmid
    · exact .inr ⟨hfailed, htaken⟩

/-! ### The rest of a message on another socket -/

/-- A socket is opened and connected. -/
def connecting : List Deed :=
  [.link (.socket (.ok ())), .link (.picked ⟨"tcp://collector:5005"⟩), .call, .link (.outcome (.done []))]

/-- A frame with more to come is taken. -/
def firstFrame : List Deed := .ask (.send [1] true) :: connecting ++ [.call, .link (.outcome (.done []))]

/-- A reply is awaited too long, and the session ends. -/
def noReply : List Deed := [.ask .receive, .call, .link (.outcome .expired), .link .closed]

/-- The last frame of the message is sent. -/
def lastFrame : List Deed := .ask (.send [2] false) :: connecting ++ [.call, .link (.outcome (.done []))]

/-- The last frame of the message is lost, and its session with it. -/
def lostFrame : List Deed :=
  [.ask (.send [2] false), .call, .link (.outcome .expired), .link .closed]

/-- A caller with one collector. -/
def sole : Caller :=
  start ⟨[⟨"tcp://collector:5005"⟩], by decide⟩ ⟨.ofMillis 1000, .ofMillis 1000, .ofMillis 1000⟩ default

theorem continues_interrupted : ∃ c c', sole.run? firstFrame = some c ∧ c.InMessage ∧
    c.run? lostFrame = some c' ∧ c.wire.taken = [⟨1, [1], true⟩] ∧
    c'.operation.result? = some (.error (.interrupted ⟨"tcp://collector:5005"⟩)) ∧
    c'.wire.taken = c.wire.taken := by
  obtain ⟨c, hc⟩ : ∃ c, sole.run? firstFrame = some c := Option.isSome_iff_exists.1 rfl
  have htaken : (sole.run? firstFrame).map (fun c => c.wire.taken) = some [⟨1, [1], true⟩] := rfl
  have hsince : (sole.run? firstFrame).map Caller.since = some [] := rfl
  obtain ⟨c', hc'⟩ : ∃ c', (sole.run? firstFrame).bind (fun c => c.run? lostFrame) = some c' :=
    Option.isSome_iff_exists.1 rfl
  have hresult : ((sole.run? firstFrame).bind fun c => c.run? lostFrame).map
      (fun c => c.operation.result?) = some (some (.error (.interrupted ⟨"tcp://collector:5005"⟩))) := rfl
  rw [hc'] at hresult
  rw [hc] at htaken hsince hc'
  have htaken : c.wire.taken = [⟨1, [1], true⟩] := Option.some.inj htaken
  have hsince : c.since = [] := Option.some.inj hsince
  have hresult := Option.some.inj hresult
  have hin : c.InMessage := by
    rw [InMessage, htaken, hsince]
    exact ⟨⟨_, rfl, rfl⟩, by simp⟩
  refine ⟨c, c', hc, hin, hc', htaken, hresult, ?_⟩
  have hkept := (continues hc hc' (by simp [Deed.isAsk]) hresult).1 hin ⟨1, [1], true⟩ (by rw [htaken]; rfl)
  rcases hkept with ⟨hno, -⟩ | ⟨-, hsame⟩
  · exact absurd hno (by simp)
  · exact hsame

/-- **A reply that is awaited in vain leaves no trace of the message behind:** its last frame is taken
alone, by another socket, and the send is not interrupted. -/
theorem lone_tail : ∃ c c', sole.run? (firstFrame ++ noReply) = some c ∧ c.run? lastFrame = some c' ∧
    c.wire.taken = [⟨1, [1], true⟩] ∧ c'.operation.result? = some (.ok []) ∧
    c'.wire.taken = [⟨1, [1], true⟩, ⟨2, [2], false⟩] := by
  obtain ⟨c, hc⟩ : ∃ c, sole.run? (firstFrame ++ noReply) = some c := Option.isSome_iff_exists.1 rfl
  have htaken : (sole.run? (firstFrame ++ noReply)).map (fun c => c.wire.taken)
      = some [⟨1, [1], true⟩] := rfl
  obtain ⟨c', hc'⟩ : ∃ c', (sole.run? (firstFrame ++ noReply)).bind (fun c => c.run? lastFrame) = some c' :=
    Option.isSome_iff_exists.1 rfl
  have hafter : ((sole.run? (firstFrame ++ noReply)).bind fun c => c.run? lastFrame).map
      (fun c => (c.operation.result?, c.wire.taken))
      = some (some (.ok []), [⟨1, [1], true⟩, ⟨2, [2], false⟩]) := rfl
  rw [hc'] at hafter
  rw [hc] at htaken hc'
  obtain ⟨hresult, htaken'⟩ := Prod.mk.inj (Option.some.inj hafter)
  exact ⟨c, c', hc, hc', Option.some.inj htaken, hresult, htaken'⟩

end Caller

end LogRelay
