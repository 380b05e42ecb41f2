import LogRelay.Proofs.Operation
import LogRelay.Proofs.Wire.Course

/-!
# The sockets of a link

A link uses one socket after the other.  A `Wire` is all of its sockets with what is asked of them,
in whatever way they answer, and the moment at which all was called off.

* `Wire.possible`: the answers that can come;
* `Wire.note`: what an answer does to the sockets;
* `Wire.callOff`: all is called off, while a certain socket is in use;
* `Wire.logs`: the entries of each socket;
* `Wire.InPhase`: how far the latest socket has come, while all others are closed.
-/

namespace LogRelay

/-- A message that a socket has taken, with the place of its batch among all that were given. -/
structure Message where
  place : Nat
  frames : List Bytes
deriving DecidableEq

/-- The sockets of a link. -/
structure Wire where
  /-- How many sockets there were when all was called off. -/
  calledOff : Option Nat := none
  under : Option Call := none
  /-- The entries of each socket, the latest socket first. -/
  sockets : List (List Entry) := []
  /-- The messages whose last frame a socket has taken, the first one first. -/
  sent : List Message := []
  /-- The places of the batches to which a reply has come, the first one first. -/
  acknowledged : List Nat := []

namespace Wire

def called (w : Wire) : Bool := w.calledOff.isSome

/-- All is called off; only the first time counts. -/
def callOff (w : Wire) : Wire := { w with calledOff := some (w.calledOff.getD w.sockets.length) }

/-- The latest socket was the latest already when all was called off. -/
def IsCut (w : Wire) : Prop := w.calledOff = some w.sockets.length

/-- The entries of the latest socket. -/
def latest (w : Wire) : List Entry := w.sockets.headD []

/-- One more entry for the latest socket. -/
def record (w : Wire) (e : Entry) : Wire :=
  match w.sockets with
  | [] => w
  | log :: rest => { w with sockets := (log ++ [e]) :: rest }

/-- A last frame that is taken makes a message, and a reply that comes in an acknowledgement. -/
def tally (w : Wire) (place : Nat) : Call → Outcome → Wire
  | .send frame false, .done _ =>
    { w with sent := w.sent ++ [⟨place, (assembled w.latest).held ++ [frame]⟩] }
  | .receive, .done _ => { w with acknowledged := w.acknowledged ++ [place] }
  | _, _ => w

/-- What an answer does to the sockets while the batch at `place` is delivered. -/
def note (w : Wire) (place : Nat) : LinkAnswer → Wire
  | .socket (.ok _) => { w with sockets := [] :: w.sockets }
  | .outcome o =>
    match w.under with
    | none => w
    | some c => { (w.tally place c o).record (.call c (some o)) with under := none }
  | .closed => w.record .close
  | _ => w

/-- Whether an outcome can come now.  When all was called off, a call does not begin, and one that
is under way is given up. -/
def outcomePossible (w : Wire) : Outcome → Bool
  | .withheld => w.called && w.under.isNone
  | .abandoned => w.called && w.under.isSome
  | .done _ | .failed _ | .expired => !w.called && w.under.isSome

/-- Whether an answer can come now. -/
def possible (w : Wire) (want : LinkWant) (a : LinkAnswer) : Bool :=
  a.fits want &&
    match a with
    | .outcome o => w.outcomePossible o
    | .rested whole => whole || w.called
    | _ => true

/-- The call that is wanted begins. -/
def begin? (w : Wire) : LinkWant → Option Wire
  | .call c _ => if w.called || w.under.isSome then none else some { w with under := some c }
  | _ => none

/-- The entries of each socket, the latest socket first, with the call that is under way. -/
def logs (w : Wire) : List (List Entry) :=
  match w.under, w.sockets with
  | some c, log :: rest => (log ++ [.call c none]) :: rest
  | _, sockets => sockets

end Wire

/-! ### How far the latest socket has come -/

namespace Wire

variable {w : Wire} {offered offered' : List Frames} {ph ph' : Phase} {place : Nat} {c : Call}
  {e : Entry} {a : LinkAnswer} {o : Outcome} {want : LinkWant}

/-- The latest socket is in a phase, and all others are closed; without any socket it is as if there
had been one that is closed. -/
structure InPhase (w : Wire) (offered : List Frames) (ph : Phase) : Prop where
  unopened : w.sockets = [] → ph = .closed
  latest : ∀ log rest, w.sockets = log :: rest → Traffic w.IsCut offered log ph
  others : ∀ later log earlier, w.sockets.tail = later ++ log :: earlier →
    Traffic (w.calledOff = some (earlier.length + 1)) offered log .closed
  /-- A socket that was opened after all was called off is never connected. -/
  late : w.called = true → w.IsCut ∨ ph = .dialing ∨ ph = .closed

@[simp] theorem sockets_tally (w : Wire) (place : Nat) (c : Call) (o : Outcome) :
    (w.tally place c o).sockets = w.sockets ∧ (w.tally place c o).calledOff = w.calledOff := by
  unfold tally
  split <;> exact ⟨rfl, rfl⟩

@[simp] theorem calledOff_record (w : Wire) (e : Entry) :
    (w.record e).calledOff = w.calledOff ∧ (w.record e).under = w.under := by
  rw [record]
  split <;> exact ⟨rfl, rfl⟩

@[simp] theorem called_note (w : Wire) (place : Nat) (a : LinkAnswer) :
    (w.note place a).called = w.called := by
  unfold note
  split
  · rfl
  · split
    · rfl
    · simp [called]
  · simp [called]
  · rfl

@[simp] theorem called_callOff (w : Wire) : w.callOff.called = true := rfl

/-- The socket that was in use when all was called off stays the same. -/
theorem calledOff_callOff {n : Nat} (h : w.calledOff = some n) : w.callOff.calledOff = some n := by
  rw [callOff, h, Option.getD_some]

/-- Only the sockets matter, and when all was called off. -/
theorem InPhase.congr {w' : Wire} (h : w.InPhase offered ph) (hs : w'.sockets = w.sockets)
    (hc : w'.calledOff = w.calledOff) : w'.InPhase offered ph := by
  have hcut : w'.IsCut = w.IsCut := by rw [IsCut, hs, hc, IsCut]
  refine ⟨fun hnil => h.unopened (hs ▸ hnil), ?_, ?_, ?_⟩
  · intro log rest hw
    rw [hcut]
    exact h.latest log rest (hs ▸ hw)
  · intro later log earlier hw
    rw [hc]
    exact h.others later log earlier (hs ▸ hw)
  · intro hcalled
    rw [hcut]
    exact h.late (by rwa [called, hc] at hcalled)

/-- More batches are offered. -/
theorem InPhase.offer (h : w.InPhase offered ph) (ho : ∀ f ∈ offered, f ∈ offered') :
    w.InPhase offered' ph :=
  ⟨h.unopened, fun log rest hw => (h.latest log rest hw).mono id ho,
    fun later log earlier hw => (h.others later log earlier hw).mono id ho, h.late⟩

theorem InPhase.callOff (h : w.InPhase offered ph) : w.callOff.InPhase offered ph := by
  refine ⟨h.unopened, ?_, ?_, ?_⟩
  · intro log rest hw
    exact (h.latest log rest hw).mono calledOff_callOff fun f hf => hf
  · intro later log earlier hw
    exact (h.others later log earlier hw).mono calledOff_callOff fun f hf => hf
  · intro _
    cases hc : w.calledOff with
    | none =>
      left
      rw [IsCut, Wire.callOff, hc, Option.getD_none]
    | some n => exact (h.late (by rw [called, hc]; rfl)).imp_left calledOff_callOff

/-- Once the latest socket is closed, the next is opened. -/
theorem InPhase.open (h : w.InPhase offered .closed) :
    ({ w with sockets := [] :: w.sockets } : Wire).InPhase offered .dialing := by
  refine ⟨fun hnil => absurd hnil (by simp), ?_, ?_, fun _ => .inr (.inl rfl)⟩
  · intro log rest hw
    obtain ⟨rfl, -⟩ := List.cons.inj hw
    exact .opened
  · intro later log earlier hw
    -- the latest socket has become one of the others
    cases later with
    | nil =>
      have htraffic := h.latest log earlier hw
      have hs : w.sockets = log :: earlier := hw
      rwa [IsCut, hs, List.length_cons] at htraffic
    | cons log' later =>
      have hs : w.sockets = log' :: (later ++ log :: earlier) := hw
      exact h.others later log earlier (by rw [hs, List.tail_cons])

/-- One more entry for a socket that is not closed. -/
theorem InPhase.record (h : w.InPhase offered ph) (hph : ph ≠ .closed)
    (ht : ∀ log, Traffic w.IsCut offered log ph → Traffic w.IsCut offered (log ++ [e]) ph')
    (hlate : w.called = true → ph = .dialing → ph' = .dialing ∨ ph' = .closed) :
    (w.record e).InPhase offered ph' := by
  rw [Wire.record]
  cases hw : w.sockets with
  | nil => exact absurd (h.unopened hw) hph
  | cons log rest =>
    have hcut : IsCut { w with sockets := (log ++ [e]) :: rest } = w.IsCut := by
      rw [IsCut, IsCut, hw]
      rfl
    refine ⟨fun hnil => absurd hnil (by simp), ?_, ?_, ?_⟩
    · intro log' rest' hs
      obtain ⟨rfl, -⟩ := List.cons.inj hs
      rw [hcut]
      exact ht log (h.latest log rest hw)
    · intro later log' earlier hs
      exact h.others later log' earlier (by rwa [hw])
    · intro hc
      rw [hcut]
      rcases h.late hc with hcut | rfl | rfl
      · exact .inl hcut
      · exact .inr (hlate hc rfl)
      · exact absurd rfl hph

/-- A round that was under way when all was called off is one of the latest socket. -/
theorem InPhase.isCut (h : w.InPhase offered ph) (hc : w.called = true)
    (hhalf : ph.isHalfway = true) : w.IsCut := by
  rcases h.late hc with hcut | rfl | rfl
  · exact hcut
  · exact absurd hhalf (by simp [Phase.isHalfway])
  · exact absurd hhalf (by simp [Phase.isHalfway])

/-- The latest socket is closed. -/
theorem InPhase.close (h : w.InPhase offered ph) (hph : ph ≠ .closed)
    (hcalled : ph.isHalfway = true → w.called = true) :
    (w.record .close).InPhase offered .closed :=
  h.record hph (fun _ hlog => .closed hlog hph fun hhalf => h.isCut (hcalled hhalf) hhalf) fun _ _ => .inr rfl

theorem note_outcome_of_none (hu : w.under = none) : w.note place (.outcome o) = w := by
  simp only [note, hu]

/-- The call that is under way comes to its outcome. -/
theorem InPhase.outcome (h : w.InPhase offered ph) (hph : ph ≠ .closed) (hu : w.under = some c)
    (ht : ∀ log, Traffic w.IsCut offered log ph →
      Traffic w.IsCut offered (log ++ [.call c (some o)]) ph')
    (hlate : w.called = true → ph = .dialing → ph' = .dialing ∨ ph' = .closed) :
    (w.note place (.outcome o)).InPhase offered ph' := by
  simp only [note, hu]
  obtain ⟨hs, hc⟩ := sockets_tally w place c o
  have hphase : (w.tally place c o).InPhase offered ph := h.congr hs hc
  have hcut : (w.tally place c o).IsCut = w.IsCut := by rw [IsCut, hs, hc, IsCut]
  refine (hphase.record hph ?_ ?_).congr rfl rfl
  · intro log hlog
    rw [hcut] at hlog ⊢
    exact ht log hlog
  · intro hcalled
    rw [called, hc] at hcalled
    exact hlate hcalled

theorem fits_of_possible (h : w.possible want a = true) : a.fits want = true :=
  (Bool.and_eq_true_iff.1 h).1

/-- An outcome comes to a call that is under way, unless all was called off before the call began. -/
theorem of_possible_outcome (h : w.possible want (.outcome o) = true) :
    (w.called = false ∧ o.isCallOff = false ∧ ∃ c, w.under = some c) ∨
    (w.called = true ∧ o = .withheld ∧ w.under = none) ∨
    (w.called = true ∧ o = .abandoned ∧ ∃ c, w.under = some c) := by
  unfold possible at h
  have h := (Bool.and_eq_true_iff.1 h).2
  cases o with
  | withheld =>
    obtain ⟨hc, hu⟩ := Bool.and_eq_true_iff.1 h
    exact .inr (.inl ⟨hc, rfl, Option.isNone_iff_eq_none.1 hu⟩)
  | abandoned =>
    obtain ⟨hc, hu⟩ := Bool.and_eq_true_iff.1 h
    exact .inr (.inr ⟨hc, rfl, Option.isSome_iff_exists.1 hu⟩)
  | done | failed | expired =>
    obtain ⟨hc, hu⟩ := Bool.and_eq_true_iff.1 h
    exact .inl ⟨by simpa using hc, rfl, Option.isSome_iff_exists.1 hu⟩

/-- A call succeeds only while it is under way and nothing was called off. -/
theorem of_possible_done {x : Bytes} (h : w.possible want (.outcome (.done x)) = true) :
    w.called = false ∧ ∃ c, w.under = some c := by
  rcases of_possible_outcome h with ⟨hc, -, hu⟩ | ⟨-, hno, -⟩ | ⟨-, hno, -⟩
  · exact ⟨hc, hu⟩
  · exact absurd hno (by simp)
  · exact absurd hno (by simp)

/-- An answer tells that all was called off only when it was. -/
theorem called_of_isCallOff (h : w.possible want a = true) (ha : a.isCallOff = true) :
    w.called = true := by
  cases a with
  | outcome o =>
    rcases of_possible_outcome h with ⟨-, ho, -⟩ | ⟨hc, -, -⟩ | ⟨hc, -, -⟩
    · exact absurd (ho.symm.trans ha) (by simp)
    · exact hc
    · exact hc
  | rested whole =>
    unfold possible at h
    have h := (Bool.and_eq_true_iff.1 h).2
    cases whole with
    | true => exact absurd ha (by simp [LinkAnswer.isCallOff])
    | false => simpa using h
  | socket | picked | closed => exact absurd ha (by simp [LinkAnswer.isCallOff])

/-- The call that is wanted begins if nothing was called off. -/
theorem of_begin? {w' : Wire} (h : w.begin? want = some w') :
    ∃ c limit, want = .call c limit ∧ w.called = false ∧ w' = { w with under := some c } := by
  unfold begin? at h
  split at h
  next c limit =>
    split at h
    · exact absurd h (by simp)
    next hfree =>
      refine ⟨c, limit, rfl, ?_, (Option.some.inj h).symm⟩
      simp only [Bool.or_eq_true, not_or, Bool.not_eq_true] at hfree
      exact hfree.1
  next => exact absurd h (by simp)

/-- The sockets before the latest are as they are recorded. -/
theorem tail_logs (w : Wire) : w.logs.tail = w.sockets.tail := by
  unfold logs
  split
  next hs =>
    rw [hs]
    rfl
  next => rfl

/-- The entries of the latest socket, and the call that is under way on it. -/
theorem latest_of_logs {log : List Entry} {earlier : List (List Entry)} (h : w.logs = log :: earlier) :
    ∃ base, w.sockets = base :: earlier ∧
      (w.under = none ∧ log = base ∨ ∃ c, w.under = some c ∧ log = base ++ [.call c none]) := by
  unfold logs at h
  split at h
  next c base rest hu hs =>
    obtain ⟨rfl, rfl⟩ := List.cons.inj h
    exact ⟨base, hs, .inr ⟨c, hu, rfl⟩⟩
  next hno =>
    refine ⟨log, h, .inl ⟨?_, rfl⟩⟩
    cases hu : w.under with
    | none => rfl
    | some c => exact absurd h (hno c log earlier hu)

/-- No call is under way after an answer. -/
theorem under_note (h : w.possible want a = true)
    (hu : ∀ c, w.under = some c → ∃ limit, want = .call c limit) :
    (w.note place a).under = none := by
  have hfit := fits_of_possible h
  cases hw : w.under with
  | some c =>
    obtain ⟨limit, rfl⟩ := hu c hw
    obtain ⟨o, rfl⟩ := LinkAnswer.eq_outcome_of_fits hfit
    simp only [note, hw]
  | none =>
    cases a with
    | outcome o => rw [note_outcome_of_none hw, hw]
    | socket r => cases r <;> exact hw
    | picked | rested => exact hw
    | closed => exact (calledOff_record w .close).2.trans hw

theorem length_record (w : Wire) (e : Entry) : (w.record e).sockets.length = w.sockets.length := by
  rw [record]
  split
  next => rfl
  next hw => rw [hw]; rfl

/-- Only a new socket adds to the sockets. -/
theorem length_note (ha : ∀ r, a ≠ .socket r) :
    (w.note place a).sockets.length = w.sockets.length := by
  cases a with
  | socket r => exact absurd rfl (ha r)
  | picked | rested => rfl
  | closed => exact length_record w .close
  | outcome o =>
    cases hu : w.under with
    | none => rw [note_outcome_of_none hu]
    | some c =>
      simp only [note, hu]
      rw [length_record, (sockets_tally w place c o).1]

theorem sockets_note_ne (h : w.sockets ≠ []) : (w.note place a).sockets ≠ [] := by
  have hlen : 0 < w.sockets.length := List.length_pos_iff.2 h
  cases a with
  | socket r =>
    cases r with
    | ok u => exact List.cons_ne_nil _ _
    | error cause => exact h
  | picked | rested | outcome | closed =>
    refine List.length_pos_iff.1 ?_
    rw [length_note (by simp)]
    exact hlen

end Wire

end LogRelay
