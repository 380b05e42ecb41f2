import LogRelay.Courier.Delivery
import Mathlib.Data.List.Chain
import Mathlib.Data.List.Infix

/-!
# What is asked of a socket

All that is ever asked of a socket is a list of entries.  A socket has a course that is regular:
collectors are tried until one accepts; then come rounds of two frames and a reply; the last round
may be unfinished; and when the socket is given up it is closed.

* `Entry`: a call on a socket with what came of it, or its closing;
* `Frames`, `Frames.calls`: the wire form of a batch and the three calls of a round;
* `Course`, `Entry.IsCourse`: the regular course of a socket;
* `Phase`, `Traffic`: how far a socket has come, entry by entry;
* `isCourse_of_traffic`: what has come about entry by entry is a regular course;
* `Entry.Follows`, `isChain_of_traffic`: what each entry follows upon;
* `assembled`, `held_of_traffic`: the messages that a socket has taken.
-/

namespace LogRelay

/-- What happens to a socket. -/
inductive Entry where
  /-- A call; without an outcome it is under way. -/
  | call (c : Call) (o : Option Outcome)
  | close
deriving DecidableEq

/-- The wire form of a batch: the two frames of its message. -/
structure Frames where
  nonce : Bytes
  ciphertext : Bytes
deriving DecidableEq

/-- The calls of a round. -/
def Frames.calls (f : Frames) : List Call := [.send f.nonce true, .send f.ciphertext false, .receive]

/-- The message that a round sends. -/
def Frames.message (f : Frames) : List Bytes := [f.nonce, f.ciphertext]

/-- The wire form of a prepared batch. -/
def PreparedBatch.frames (p : PreparedBatch) : Frames := ⟨p.nonce, p.ciphertext⟩

namespace Entry

def call? : Entry → Option Call
  | call c _ => some c
  | close => none

/-- Whether an entry is an attempt to connect. -/
def isConnect : Entry → Bool
  | call (.connect _) _ => true
  | _ => false

/-- Whether an entry is a call that has succeeded. -/
def succeeded : Entry → Bool
  | call _ (some (.done _)) => true
  | _ => false

/-- Whether an entry is a call that has failed or taken too long. -/
def failed : Entry → Bool
  | call _ (some (.failed _)) | call _ (some .expired) => true
  | _ => false

/-- A complete round for one of the offered batches: its three calls, each successful. -/
def IsRound (offered : List Frames) (r : List Entry) : Prop :=
  ∃ f ∈ offered, r.map call? = f.calls.map some ∧ ∀ e ∈ r, e.succeeded = true

/-- An unfinished round for one of the offered batches: its first calls, of which all but the last have
succeeded.  The last has failed or taken too long, unless the round was `cut`. -/
def IsUnfinished (offered : List Frames) (cut : Prop) (r : List Entry) : Prop :=
  ∃ f ∈ offered, r.map call? <+: f.calls.map some ∧ (∀ e ∈ r.dropLast, e.succeeded = true) ∧
    ((∃ e, r.getLast? = some e ∧ e.failed = true) ∨ cut)

/-- The regular course of a socket in its four parts. -/
structure Course (offered : List Frames) (cut : Prop) (dials : List Entry) (rounds : List (List Entry))
    (rest tail : List Entry) : Prop where
  /-- Collectors are tried first. -/
  connects : ∀ e ∈ dials, e.isConnect = true
  /-- Only the last of them may accept. -/
  refused : ∀ e ∈ dials.dropLast, e.succeeded = false
  /-- Nothing else is asked before it does. -/
  accepted : rounds ≠ [] ∨ rest ≠ [] → ∃ e, dials.getLast? = some e ∧ e.succeeded = true
  /-- Then come complete rounds. -/
  complete : ∀ r ∈ rounds, IsRound offered r
  /-- Then an unfinished one may come. -/
  unfinished : rest = [] ∨ IsUnfinished offered cut rest
  /-- Then the socket is closed, if it is given up. -/
  closing : tail = [] ∨ tail = [close]

/-- The entries of a socket are a regular course. -/
def IsCourse (offered : List Frames) (cut : Prop) (log : List Entry) : Prop :=
  ∃ dials rounds rest tail, log = dials ++ rounds.flatten ++ rest ++ tail ∧
    Course offered cut dials rounds rest tail

end Entry

/-! ### Entry by entry -/

/-- How far a socket has come: it is `dialing` until a collector accepts, `ready` between two
rounds, in a round after its first frame or `awaiting` the reply to both, and `broken` after a round
that has broken off. -/
inductive Phase where
  | dialing
  | ready
  | nonceOut (f : Frames)
  | awaiting (f : Frames)
  | broken
  | closed

/-- Whether a round is neither complete nor has broken off. -/
def Phase.isHalfway : Phase → Bool
  | nonceOut _ | awaiting _ => true
  | _ => false

/-- Whether an outcome, or the lack of one, breaks off a round. -/
def breaksOff (cut : Prop) (o : Option Outcome) : Prop :=
  (∃ cause, o = some (.failed cause)) ∨ o = some .expired ∨ cut ∧ ∀ x, o ≠ some (.done x)

open Entry in
/-- The entries of a socket, and how far it has come with them. -/
inductive Traffic (cut : Prop) (offered : List Frames) : List Entry → Phase → Prop where
  | opened : Traffic cut offered [] .dialing
  | refused {log : List Entry} (h : Traffic cut offered log .dialing) (a : Address) {o : Option Outcome}
      (ho : ∀ x, o ≠ some (.done x)) : Traffic cut offered (log ++ [call (.connect a) o]) .dialing
  | accepted {log : List Entry} (h : Traffic cut offered log .dialing) (a : Address) (x : Bytes) :
      Traffic cut offered (log ++ [call (.connect a) (some (.done x))]) .ready
  | nonceSent {log : List Entry} {f : Frames} (h : Traffic cut offered log .ready) (hf : f ∈ offered)
      (x : Bytes) : Traffic cut offered (log ++ [call (.send f.nonce true) (some (.done x))]) (.nonceOut f)
  | ciphertextSent {log : List Entry} {f : Frames} (h : Traffic cut offered log (.nonceOut f))
      (x : Bytes) :
      Traffic cut offered (log ++ [call (.send f.ciphertext false) (some (.done x))]) (.awaiting f)
  | replied {log : List Entry} {f : Frames} (h : Traffic cut offered log (.awaiting f)) (x : Bytes) :
      Traffic cut offered (log ++ [call .receive (some (.done x))]) .ready
  | nonceLost {log : List Entry} {f : Frames} (h : Traffic cut offered log .ready) (hf : f ∈ offered)
      {o : Option Outcome} (ho : breaksOff cut o) :
      Traffic cut offered (log ++ [call (.send f.nonce true) o]) .broken
  | ciphertextLost {log : List Entry} {f : Frames} (h : Traffic cut offered log (.nonceOut f))
      {o : Option Outcome} (ho : breaksOff cut o) :
      Traffic cut offered (log ++ [call (.send f.ciphertext false) o]) .broken
  | replyLost {log : List Entry} {f : Frames} (h : Traffic cut offered log (.awaiting f))
      {o : Option Outcome} (ho : breaksOff cut o) :
      Traffic cut offered (log ++ [call .receive o]) .broken
  | closed {log : List Entry} {ph : Phase} (h : Traffic cut offered log ph) (hph : ph ≠ .closed)
      (hcut : ph.isHalfway = true → cut) : Traffic cut offered (log ++ [close]) .closed

section

variable {cut cut' : Prop} {offered offered' : List Frames} {log : List Entry} {ph : Phase}

theorem breaksOff_mono {o : Option Outcome} (h : breaksOff cut o) (hcut : cut → cut') :
    breaksOff cut' o := by
  rcases h with h | h | ⟨h, ho⟩
  · exact .inl h
  · exact .inr (.inl h)
  · exact .inr (.inr ⟨hcut h, ho⟩)

/-- More batches may be offered, and there may be more reasons to break off. -/
theorem Traffic.mono (h : Traffic cut offered log ph) (hcut : cut → cut')
    (hoffered : ∀ f ∈ offered, f ∈ offered') : Traffic cut' offered' log ph := by
  induction h with
  | opened => exact .opened
  | refused _ a ho ih => exact .refused ih a ho
  | accepted _ a x ih => exact .accepted ih a x
  | nonceSent _ hf x ih => exact .nonceSent ih (hoffered _ hf) x
  | ciphertextSent _ x ih => exact .ciphertextSent ih x
  | replied _ x ih => exact .replied ih x
  | nonceLost _ hf ho ih => exact .nonceLost ih (hoffered _ hf) (breaksOff_mono ho hcut)
  | ciphertextLost _ ho ih => exact .ciphertextLost ih (breaksOff_mono ho hcut)
  | replyLost _ ho ih => exact .replyLost ih (breaksOff_mono ho hcut)
  | closed _ hph hc ih => exact .closed ih hph fun hh => hcut (hc hh)

end

/-! ### From entries to a course -/

namespace Entry

/-- A socket that a collector has accepted, with complete rounds only. -/
def IsServed (offered : List Frames) (log : List Entry) : Prop :=
  ∃ (dials : List Entry) (rounds : List (List Entry)), log = dials ++ rounds.flatten ∧
    (∀ e ∈ dials, e.isConnect = true) ∧
    (∀ e ∈ dials.dropLast, e.succeeded = false) ∧ (∃ e, dials.getLast? = some e ∧ e.succeeded = true) ∧
    ∀ r ∈ rounds, IsRound offered r

/-- A socket that is not closed has a course without an end. -/
def IsOpenCourse (offered : List Frames) (cut : Prop) (log : List Entry) : Prop :=
  ∃ dials rounds rest, log = dials ++ rounds.flatten ++ rest ∧ Course offered cut dials rounds rest []

variable {cut cut' : Prop} {offered : List Frames} {log base rest r : List Entry} {f : Frames}

theorem isServed_of_accepted {e : Entry} (h : ∀ e ∈ log, e.isConnect = true ∧ e.succeeded = false)
    (hc : e.isConnect = true) (hs : e.succeeded = true) : IsServed offered (log ++ [e]) := by
  refine ⟨log ++ [e], [], by simp, ?_, ?_, ⟨e, by simp, hs⟩, by simp⟩
  · intro x hx
    rcases List.mem_append.1 hx with hx | hx
    · exact (h x hx).1
    · obtain rfl := List.mem_singleton.1 hx
      exact hc
  · intro x hx
    rw [List.dropLast_concat] at hx
    exact (h x hx).2

/-- One more round is complete. -/
theorem IsServed.append (h : IsServed offered base) (hr : IsRound offered r) :
    IsServed offered (base ++ r) := by
  obtain ⟨dials, rounds, rfl, hconnects, hrefused, haccepted, hrounds⟩ := h
  refine ⟨dials, rounds ++ [r], by simp, hconnects, hrefused, haccepted, ?_⟩
  intro x hx
  rcases List.mem_append.1 hx with hx | hx
  · exact hrounds x hx
  · obtain rfl := List.mem_singleton.1 hx
    exact hr

theorem IsServed.isOpenCourse (h : IsServed offered base)
    (hr : rest = [] ∨ IsUnfinished offered cut rest) :
    IsOpenCourse offered cut (base ++ rest) := by
  obtain ⟨dials, rounds, rfl, hconnects, hrefused, haccepted, hrounds⟩ := h
  exact ⟨dials, rounds, rest, rfl, hconnects, hrefused, fun _ => haccepted, hrounds, hr, .inl rfl⟩

theorem isOpenCourse_of_dialing (h : ∀ e ∈ log, e.isConnect = true ∧ e.succeeded = false) :
    IsOpenCourse offered cut log :=
  ⟨log, [], [], by simp, fun e he => (h e he).1,
    fun e he => (h e (List.mem_of_mem_dropLast he)).2, by simp, by simp, .inl rfl, .inl rfl⟩

/-- The calls of a round that have been made so far, the last of which has not succeeded. -/
theorem isUnfinished_concat {c : Call} {o : Option Outcome} (hf : f ∈ offered)
    (hcalls : (r ++ [call c o]).map call? <+: f.calls.map some) (hr : ∀ e ∈ r, e.succeeded = true)
    (ho : breaksOff cut o) : IsUnfinished offered cut (r ++ [call c o]) := by
  refine ⟨f, hf, hcalls, by rwa [List.dropLast_concat], ?_⟩
  rcases ho with ⟨cause, rfl⟩ | rfl | ⟨hcut, -⟩
  · exact .inl ⟨call c (some (.failed cause)), by simp, rfl⟩
  · exact .inl ⟨call c (some .expired), by simp, rfl⟩
  · exact .inr hcut

end Entry

open Entry

/-- What the entries of a socket are in each phase. -/
def Parts (cut : Prop) (offered : List Frames) (log : List Entry) : Phase → Prop
  | .dialing => ∀ e ∈ log, e.isConnect = true ∧ e.succeeded = false
  | .ready => IsServed offered log
  | .nonceOut f => ∃ base x, IsServed offered base ∧ f ∈ offered ∧
      log = base ++ [call (.send f.nonce true) (some (.done x))]
  | .awaiting f => ∃ base x y, IsServed offered base ∧ f ∈ offered ∧
      log = base ++ [call (.send f.nonce true) (some (.done x)),
        call (.send f.ciphertext false) (some (.done y))]
  | .broken => ∃ base rest, IsServed offered base ∧ IsUnfinished offered cut rest ∧ log = base ++ rest
  | .closed => ∃ base, IsOpenCourse offered cut base ∧ log = base ++ [close]

section

variable {cut : Prop} {offered : List Frames} {log : List Entry} {ph : Phase}

/-- A socket that is not closed has an open course if the round that is under way on it may be cut. -/
theorem isOpenCourse_of_parts (h : Parts cut offered log ph) (hph : ph ≠ .closed)
    (hhalf : ph.isHalfway = true → cut) : IsOpenCourse offered cut log := by
  cases ph with
  | dialing => exact isOpenCourse_of_dialing h
  | ready =>
    rw [← List.append_nil log]
    exact IsServed.isOpenCourse h (.inl rfl)
  | nonceOut f =>
    obtain ⟨base, x, hbase, hf, rfl⟩ := h
    exact hbase.isOpenCourse (.inr ⟨f, hf, by simp [call?, Frames.calls], by simp, .inr (hhalf rfl)⟩)
  | awaiting f =>
    obtain ⟨base, x, y, hbase, hf, rfl⟩ := h
    exact hbase.isOpenCourse
      (.inr ⟨f, hf, by simp [call?, Frames.calls], by simp [succeeded], .inr (hhalf rfl)⟩)
  | broken =>
    obtain ⟨base, rest, hbase, hrest, rfl⟩ := h
    exact hbase.isOpenCourse (.inr hrest)
  | closed => exact absurd rfl hph

theorem parts_of_traffic (h : Traffic cut offered log ph) : Parts cut offered log ph := by
  induction h with
  | opened => exact fun e he => absurd he List.not_mem_nil
  | @refused log _ a o ho ih =>
    intro e he
    rcases List.mem_append.1 he with he | he
    · exact ih e he
    · obtain rfl := List.mem_singleton.1 he
      refine ⟨rfl, ?_⟩
      cases o with
      | none => rfl
      | some o =>
        cases o with
        | done x => exact absurd rfl (ho x)
        | failed | expired | withheld | abandoned => rfl
  | accepted _ a x ih => exact isServed_of_accepted ih rfl rfl
  | nonceSent _ hf x ih => exact ⟨_, x, ih, hf, rfl⟩
  | ciphertextSent _ y ih =>
    obtain ⟨base, x, hbase, hf, rfl⟩ := ih
    exact ⟨base, x, y, hbase, hf, by simp⟩
  | @replied _ f _ z ih =>
    obtain ⟨base, x, y, hbase, hf, rfl⟩ := ih
    rw [List.append_assoc]
    exact hbase.append ⟨f, hf, rfl, by simp [succeeded]⟩
  | nonceLost _ hf ho ih =>
    exact ⟨_, _, ih, isUnfinished_concat (r := []) hf (by simp [call?, Frames.calls]) (by simp) ho, rfl⟩
  | @ciphertextLost _ f _ o ho ih =>
    obtain ⟨base, x, hbase, hf, rfl⟩ := ih
    refine ⟨base, [call (.send f.nonce true) (some (.done x))] ++
      [call (.send f.ciphertext false) o], hbase, ?_, by simp⟩
    exact isUnfinished_concat hf (by simp [call?, Frames.calls]) (by simp [succeeded]) ho
  | @replyLost _ f _ o ho ih =>
    obtain ⟨base, x, y, hbase, hf, rfl⟩ := ih
    refine ⟨base, [call (.send f.nonce true) (some (.done x)),
      call (.send f.ciphertext false) (some (.done y))] ++ [call .receive o], hbase, ?_, by simp⟩
    exact isUnfinished_concat hf (by simp [call?, Frames.calls]) (by simp [succeeded]) ho
  | closed _ hph hcut ih => exact ⟨_, isOpenCourse_of_parts ih hph hcut, rfl⟩

/-- **What has come about entry by entry is a regular course**, if the round that is under way may
be cut. -/
theorem isCourse_of_traffic (h : Traffic cut offered log ph) (hhalf : ph.isHalfway = true → cut) :
    IsCourse offered cut log := by
  have hparts := parts_of_traffic h
  by_cases hph : ph = .closed
  · subst hph
    obtain ⟨base, ⟨dials, rounds, rest, rfl, hcourse⟩, rfl⟩ := hparts
    exact ⟨dials, rounds, rest, [close], rfl, hcourse.connects, hcourse.refused, hcourse.accepted,
      hcourse.complete, hcourse.unfinished, .inr rfl⟩
  · obtain ⟨dials, rounds, rest, rfl, hcourse⟩ := isOpenCourse_of_parts hparts hph hhalf
    exact ⟨dials, rounds, rest, [], by simp, hcourse⟩

theorem getLast?_of_closed (h : Traffic cut offered log .closed) : log.getLast? = some close := by
  cases h
  simp

theorem getLast?_of_ready (h : Traffic cut offered log .ready) :
    ∃ e, log.getLast? = some e ∧ e.succeeded = true := by
  cases h with
  | accepted h a x => exact ⟨call (.connect a) (some (.done x)), by simp, rfl⟩
  | replied h x => exact ⟨call .receive (some (.done x)), by simp, rfl⟩

end

/-! ### What follows upon what -/

/-- What an entry may follow upon: a nonce upon a connection or a reply, a ciphertext upon the nonce
of the same batch, and the wait for a reply upon a ciphertext, each successful. -/
def Entry.Follows (offered : List Frames) (before : Entry) : Entry → Prop
  | call (.connect _) _ => before.isConnect = true ∧ before.succeeded = false
  | call (.send _ true) _ =>
    before.succeeded = true ∧ (before.isConnect = true ∨ before.call? = some .receive)
  | call (.send frame false) _ =>
    ∃ f ∈ offered, frame = f.ciphertext ∧ before.succeeded = true ∧
      before.call? = some (.send f.nonce true)
  | call .receive _ =>
    ∃ f ∈ offered, before.succeeded = true ∧ before.call? = some (.send f.ciphertext false)
  | close => before ≠ close

/-- What the last entry of a socket is in each phase. -/
def Phase.Ends (offered : List Frames) (e : Entry) : Phase → Prop
  | .dialing => e.isConnect = true ∧ e.succeeded = false
  | .ready => e.succeeded = true ∧ (e.isConnect = true ∨ e.call? = some .receive)
  | .nonceOut f => f ∈ offered ∧ e.succeeded = true ∧ e.call? = some (.send f.nonce true)
  | .awaiting f => f ∈ offered ∧ e.succeeded = true ∧ e.call? = some (.send f.ciphertext false)
  | .broken => e ≠ close
  | .closed => e = close

section

variable {cut : Prop} {offered : List Frames} {log : List Entry} {ph : Phase} {e : Entry}

theorem ends_of_traffic (h : Traffic cut offered log ph) (he : e ∈ log.getLast?) :
    ph.Ends offered e := by
  cases h with
  | opened => exact absurd he (by simp)
  | @refused log h a o ho =>
    have hparts := parts_of_traffic (Traffic.refused h a ho)
    exact hparts e (List.mem_of_getLast? he)
  | accepted h a x =>
    obtain rfl : call (.connect a) (some (.done x)) = e := by simpa using he
    exact ⟨rfl, .inl rfl⟩
  | @nonceSent log f h hf x =>
    obtain rfl : call (.send f.nonce true) (some (.done x)) = e := by simpa using he
    exact ⟨hf, rfl, rfl⟩
  | @ciphertextSent log f h x =>
    obtain rfl : call (.send f.ciphertext false) (some (.done x)) = e := by simpa using he
    obtain ⟨base, y, -, hf, -⟩ := parts_of_traffic h
    exact ⟨hf, rfl, rfl⟩
  | replied h x =>
    obtain rfl : call .receive (some (.done x)) = e := by simpa using he
    exact ⟨rfl, .inr rfl⟩
  | @nonceLost log f h hf o ho =>
    obtain rfl : call (.send f.nonce true) o = e := by simpa using he
    simp [Phase.Ends]
  | @ciphertextLost log f h o ho =>
    obtain rfl : call (.send f.ciphertext false) o = e := by simpa using he
    simp [Phase.Ends]
  | @replyLost log f h o ho =>
    obtain rfl : call .receive o = e := by simpa using he
    simp [Phase.Ends]
  | closed h hph hcut =>
    obtain rfl : close = e := by simpa using he
    rfl

/-- A socket that is not closed does not end with its closing. -/
theorem Phase.Ends.ne_close (h : ph.Ends offered e) (hph : ph ≠ .closed) : e ≠ close := by
  rintro rfl
  cases ph with
  | dialing => exact absurd h.1 (by simp [isConnect])
  | ready => exact absurd h.1 (by simp [succeeded])
  | nonceOut f => exact absurd h.2.1 (by simp [succeeded])
  | awaiting f => exact absurd h.2.1 (by simp [succeeded])
  | broken => exact h rfl
  | closed => exact hph rfl

/-- **Each entry follows upon one that it may follow upon.** -/
theorem isChain_of_traffic (h : Traffic cut offered log ph) : log.IsChain (Entry.Follows offered) := by
  -- one more entry: it follows upon what the phase before it ends with
  have hstep {log : List Entry} {ph : Phase} {e : Entry} (h : Traffic cut offered log ph)
      (ih : log.IsChain (Entry.Follows offered))
      (he : ∀ b, ph.Ends offered b → Entry.Follows offered b e) :
      (log ++ [e]).IsChain (Entry.Follows offered) := by
    refine List.isChain_append.2 ⟨ih, List.isChain_singleton e, ?_⟩
    intro b hb x hx
    obtain rfl : e = x := by simpa using hx
    exact he b (ends_of_traffic h hb)
  induction h with
  | opened => exact List.isChain_nil
  | refused h a ho ih => exact hstep h ih fun b hb => hb
  | accepted h a x ih => exact hstep h ih fun b hb => hb
  | nonceSent h hf x ih => exact hstep h ih fun b hb => hb
  | nonceLost h hf ho ih => exact hstep h ih fun b hb => hb
  | ciphertextSent h x ih => exact hstep h ih fun b hb => ⟨_, hb.1, rfl, hb.2⟩
  | ciphertextLost h ho ih => exact hstep h ih fun b hb => ⟨_, hb.1, rfl, hb.2⟩
  | replied h x ih => exact hstep h ih fun b hb => ⟨_, hb.1, hb.2⟩
  | replyLost h ho ih => exact hstep h ih fun b hb => ⟨_, hb.1, hb.2⟩
  | closed h hph hcut ih => exact hstep h ih fun b hb => hb.ne_close hph

end

/-! ### The messages that a socket takes -/

/-- The messages that a socket has taken, and the frames of one that is not finished. -/
structure Assembled where
  /-- The messages, the first one first. -/
  messages : List (List Bytes) := []
  /-- The frames of the message that is not finished. -/
  held : List Bytes := []
deriving DecidableEq

/-- One more entry: a frame that a socket takes belongs to its message, which ends with a last frame. -/
def Assembled.add (a : Assembled) : Entry → Assembled
  | .call (.send frame true) (some (.done _)) => { a with held := a.held ++ [frame] }
  | .call (.send frame false) (some (.done _)) => ⟨a.messages ++ [a.held ++ [frame]], []⟩
  | _ => a

/-- What a socket has taken. -/
def assembled (log : List Entry) : Assembled := log.foldl Assembled.add {}

theorem assembled_concat (log : List Entry) (e : Entry) :
    assembled (log ++ [e]) = (assembled log).add e := by
  rw [assembled, List.foldl_append]
  rfl

/-- The frames of the message that is not finished, as far as a phase tells. -/
def Phase.held? : Phase → Option (List Bytes)
  | dialing | ready | awaiting _ => some []
  | nonceOut f => some [f.nonce]
  | broken | closed => none

/-- An entry that is no frame leaves the messages as they are. -/
theorem Assembled.add_of_ne {a : Assembled} {e : Entry}
    (h : ∀ frame more x, e ≠ .call (.send frame more) (some (.done x))) : a.add e = a := by
  cases e with
  | close => rfl
  | call c o =>
    cases c with
    | connect | receive => rfl
    | send frame more =>
      cases o with
      | none => cases more <;> rfl
      | some o =>
        cases o with
        | done x => exact absurd rfl (h frame more x)
        | failed | expired | withheld | abandoned => cases more <;> rfl

theorem held_of_traffic {cut : Prop} {offered : List Frames} {log : List Entry} {ph : Phase}
    {held : List Bytes} (h : Traffic cut offered log ph) (hh : ph.held? = some held) :
    (assembled log).held = held := by
  induction h generalizing held with
  | opened => exact Option.some.inj hh
  | refused _ a ho ih =>
    rw [assembled_concat, Assembled.add_of_ne (by simp)]
    exact ih hh
  | accepted _ a x ih =>
    rw [assembled_concat, Assembled.add_of_ne (by simp)]
    exact ih hh
  | nonceSent _ hf x ih =>
    rw [assembled_concat, ← Option.some.inj hh]
    simp only [Assembled.add, ih rfl, List.nil_append]
  | ciphertextSent _ x ih =>
    rw [assembled_concat]
    exact Option.some.inj hh
  | replied _ x ih =>
    rw [assembled_concat, Assembled.add_of_ne (by simp)]
    exact ih hh
  | nonceLost | ciphertextLost | replyLost | closed => exact absurd hh (by simp [Phase.held?])

end LogRelay
