import LogRelay.Messaging
import Mathlib.Data.List.DropRight

/-!
# Frames that become messages

A requester is asked to take one frame after the other, and perhaps to let its socket go.  The socket may answer
each message in any way, or never.

* `Requester.Ask`, `Requester.serveAll`: what is asked of a requester, and what it makes of that;
* `Requester.unfinished`: the frames of a message whose last frame is still to come, read off what was asked;
* `Requester.Due`: what has to come of something that is asked after other things;
* `Requester.Follows`, `follows_serve`: **what a requester holds is the unfinished message**;
* `Requester.Grouping`, `Requester.groups_frames`: the messages that are handed over.
-/

namespace LogRelay

/-- The message that is handed over. -/
def FrameOutcome.message? : FrameOutcome → Option (List Bytes)
  | handed message => some message
  | held | lost => none

namespace Requester

/-- What is asked of a requester.  If a frame finishes a message that is handed over, `answer` is what comes of
that, or `none` if it never ends and is given up. -/
inductive Ask where
  | frame (f : Bytes) (more : Bool) (answer : Option (Except SocketFault Unit))
  | close

/-- What comes of it. -/
structure Report where
  handed : Option (List Bytes)
  /-- What the caller was told, if the call has ended. -/
  told : Option (Except SocketFault Unit)

/-- Whether a message goes on behind it. -/
def Ask.goesOn : Ask → Bool
  | frame _ true _ => true
  | frame _ false _ | close => false

def Ask.frame? : Ask → Option Bytes
  | frame f _ _ => some f
  | close => none

def serve (r : Requester) : Ask → Report × Requester
  | .frame f more answer =>
    let (outcome, r) := r.send f more
    (⟨outcome.message?, outcome.told answer⟩, r)
  | .close => (⟨none, some (.ok ())⟩, r.close)

def serveAll (r : Requester) : List Ask → List Report × Requester
  | [] => ([], r)
  | ask :: asks =>
    let (report, r) := r.serve ask
    let (reports, r) := r.serveAll asks
    (report :: reports, r)

/-- The messages that are handed over, the first one first. -/
def messages (r : Requester) (asks : List Ask) : List (List Bytes) :=
  (r.serveAll asks).1.filterMap Report.handed

/-- The frames that came since the last frame of a message, or since the beginning. -/
def unfinished (asks : List Ask) : List Bytes := (asks.rtakeWhile Ask.goesOn).filterMap Ask.frame?

/-- What has to come of something that is asked of a requester after other things. -/
inductive Due (before : List Ask) : Ask → Report → Prop where
  | held (f : Bytes) (answer : Option (Except SocketFault Unit)) :
      Due before (.frame f true answer) ⟨none, some (.ok ())⟩
  | handed (f : Bytes) (answer : Option (Except SocketFault Unit)) (h : .close ∉ before) :
      Due before (.frame f false answer) ⟨some (unfinished before ++ [f]), answer⟩
  | lost (f : Bytes) (answer : Option (Except SocketFault Unit)) (h : .close ∈ before) :
      Due before (.frame f false answer) ⟨none, some (.error .notConnected)⟩
  | closed : Due before .close ⟨none, some (.ok ())⟩

variable {r : Requester} {before after : List Ask} {ask : Ask}

/-! ### Rows of requests -/

theorem serveAll_append (r : Requester) (before after : List Ask) :
    r.serveAll (before ++ after) =
      ((r.serveAll before).1 ++ ((r.serveAll before).2.serveAll after).1,
        ((r.serveAll before).2.serveAll after).2) := by
  induction before generalizing r with
  | nil => rfl
  | cons ask before ih => simp only [List.cons_append, serveAll, ih]

theorem length_serveAll (r : Requester) (asks : List Ask) : (r.serveAll asks).1.length = asks.length := by
  induction asks generalizing r with
  | nil => rfl
  | cons ask asks ih => simp only [serveAll, List.length_cons, ih]

theorem messages_append (r : Requester) (before after : List Ask) :
    r.messages (before ++ after) = r.messages before ++ (r.serveAll before).2.messages after := by
  rw [messages, serveAll_append, List.filterMap_append]
  rfl

theorem messages_singleton (r : Requester) (ask : Ask) :
    r.messages [ask] = (r.serve ask).1.handed.toList := by
  simp only [messages, serveAll, List.filterMap_cons, List.filterMap_nil]
  cases (r.serve ask).1.handed <;> rfl

/-- Nothing is handed over when the socket is gone. -/
theorem messages_of_gone (h : r.present = false) (asks : List Ask) : r.messages asks = [] := by
  induction asks generalizing r with
  | nil => rfl
  | cons ask asks ih =>
    have hgone : (r.serve ask).2.present = false ∧ (r.serve ask).1.handed = none := by
      cases ask with
      | close => exact ⟨rfl, rfl⟩
      | frame f more answer =>
        cases more with
        | true => exact ⟨h, rfl⟩
        | false =>
          simp only [serve, send, h]
          exact ⟨rfl, rfl⟩
    have hfirst : r.messages [ask] = [] := by
      rw [messages_singleton, hgone.2]
      rfl
    calc r.messages (ask :: asks) = r.messages [ask] ++ (r.serve ask).2.messages asks :=
          messages_append r [ask] asks
      _ = [] := by rw [hfirst, ih hgone.1, List.append_nil]

/-! ### What is held -/

theorem unfinished_of_goesOn (h : ask.goesOn = true) :
    unfinished (before ++ [ask]) = unfinished before ++ ask.frame?.toList := by
  rw [unfinished, List.rtakeWhile_concat_pos _ _ _ h, List.filterMap_append]
  cases ask <;> rfl

theorem unfinished_of_not_goesOn (h : ask.goesOn = false) : unfinished (before ++ [ask]) = [] := by
  rw [unfinished, List.rtakeWhile_concat_neg _ _ _ (by simp [h])]
  rfl

/-- A requester of which all this was asked: it has its socket until it is closed, and holds the message that is
not finished. -/
structure Follows (before : List Ask) (r : Requester) : Prop where
  present : r.present = true ↔ .close ∉ before
  held : r.held = unfinished before

theorem follows_nil : Follows [] {} := ⟨by simp, rfl⟩

/-- **What comes of a request is what is due**, and nothing is kept but the message that is not finished. -/
theorem follows_serve (h : Follows before r) (ask : Ask) :
    Due before ask (r.serve ask).1 ∧ Follows (before ++ [ask]) (r.serve ask).2 := by
  cases ask with
  | close => exact ⟨.closed, by simp [serve, close], (unfinished_of_not_goesOn rfl).symm⟩
  | frame f more answer =>
    have hpresent : r.present = true ↔ .close ∉ before ++ [.frame f more answer] := by simp [h.present]
    cases more with
    | true =>
      refine ⟨.held f answer, hpresent, ?_⟩
      show r.held ++ [f] = unfinished (before ++ [.frame f true answer])
      rw [unfinished_of_goesOn rfl, h.held]
      rfl
    | false =>
      refine ⟨?_, hpresent, (unfinished_of_not_goesOn rfl).symm⟩
      by_cases hclose : Ask.close ∈ before
      · have hgone : r.present = false := Bool.eq_false_iff.2 fun hp => h.present.1 hp hclose
        simp only [serve, send, hgone]
        exact .lost f answer hclose
      · have hmessage : (r.serve (.frame f false answer)).1 = ⟨some (unfinished before ++ [f]), answer⟩ := by
          simp only [serve, send, h.present.2 hclose, h.held]
          rfl
        rw [hmessage]
        exact .handed f answer hclose

theorem follows_serveAll (h : Follows before r) (after : List Ask) :
    Follows (before ++ after) (r.serveAll after).2 := by
  induction after generalizing r before with
  | nil => rwa [List.append_nil]
  | cons ask after ih =>
    have hlater := ih (follows_serve h ask).2
    rwa [List.append_assoc, List.singleton_append] at hlater

/-- A requester that was just opened, after all this was asked of it. -/
theorem follows_opened (before : List Ask) : Follows before (serveAll {} before).2 :=
  follows_serveAll follows_nil before

theorem due_opened (before : List Ask) (ask : Ask) : Due before ask ((serveAll {} before).2.serve ask).1 :=
  (follows_serve (follows_opened before) ask).1

theorem getElem?_reports (before after : List Ask) (ask : Ask) :
    (serveAll {} (before ++ ask :: after)).1[before.length]? =
      some ((serveAll {} before).2.serve ask).1 := by
  rw [serveAll_append, List.getElem?_append_right (Nat.le_of_eq (length_serveAll _ _)), length_serveAll,
    Nat.sub_self]
  rfl

/-! ### The messages -/

/-- What one more request adds to the messages. -/
theorem messages_concat (before : List Ask) (ask : Ask) :
    messages {} (before ++ [ask]) =
      messages {} before ++ ((serveAll {} before).2.serve ask).1.handed.toList := by
  rw [messages_append, messages_singleton]

/-- Every frame is in one message, or in the one that is not finished; all of them stay in their order. -/
theorem flatten_messages {asks : List Ask} (h : .close ∉ asks) :
    (messages {} asks).flatten ++ unfinished asks = asks.filterMap Ask.frame? := by
  induction asks using List.reverseRecOn with
  | nil => rfl
  | append_singleton before ask ih =>
    have hbefore : .close ∉ before := fun hmem => h (List.mem_append_left _ hmem)
    have hdue := due_opened before ask
    rw [messages_concat, List.filterMap_append, ← ih hbefore, List.flatten_append]
    generalize ((serveAll {} before).2.serve ask).1 = report at hdue
    cases hdue with
    | held f answer =>
      rw [unfinished_of_goesOn rfl, ← List.append_assoc]
      simp [Ask.frame?]
    | handed f answer =>
      rw [unfinished_of_not_goesOn rfl]
      simp [Ask.frame?]
    | lost f answer hclose => exact absurd hclose hbefore
    | closed => exact absurd (List.mem_append_right _ List.mem_cons_self) h

/-- After the last frame of a message a requester is as it was when it was opened. -/
theorem opened_of_last (f : Bytes) (answer : Option (Except SocketFault Unit)) (h : .close ∉ before) :
    (serveAll {} (before ++ [.frame f false answer])).2 = {} := by
  obtain ⟨hpresent, hheld⟩ := follows_opened (before ++ [.frame f false answer])
  generalize (serveAll {} (before ++ [.frame f false answer])).2 = r at hpresent hheld
  rw [unfinished_of_not_goesOn rfl] at hheld
  obtain ⟨present, held⟩ := r
  obtain rfl : held = [] := hheld
  obtain rfl : present = true := hpresent.2 (by simp [h])
  rfl

/-- What comes of all that is asked of a requester that was just opened. -/
structure Grouping (asks : List Ask) : Prop where
  /-- Each request has one report, and what it says is due: a message is handed over at its last frame, and
  only then. -/
  reports : (serveAll {} asks).1.length = asks.length
  due : ∀ before ask after, asks = before ++ ask :: after →
    ∃ report, (serveAll {} asks).1[before.length]? = some report ∧ Due before ask report
  /-- No frame is left out, put elsewhere or used twice. -/
  whole : .close ∉ asks → (messages {} asks).flatten ++ unfinished asks = asks.filterMap Ask.frame?
  /-- Whatever comes of handing over a message, nothing of it is found in a later one: what follows is what
  would follow upon the opening. -/
  afresh : ∀ before f answer after, asks = before ++ .frame f false answer :: after → .close ∉ before →
    messages {} asks = messages {} (before ++ [.frame f false answer]) ++ messages {} after
  /-- Closing drops what is held, and nothing is handed over any more. -/
  closed : ∀ before after, asks = before ++ .close :: after →
    (serveAll {} (before ++ [.close])).2.held = [] ∧ messages {} asks = messages {} before

/-- **The messages of a requester.**  Whatever is asked of it, and in whatever way its socket answers, a message
is handed over once, at its last frame, and consists of the frames since the one that finished the message
before. -/
theorem groups_frames (asks : List Ask) : Grouping asks where
  reports := length_serveAll {} asks
  due := by
    rintro before ask after rfl
    exact ⟨_, getElem?_reports before after ask, due_opened before ask⟩
  whole := flatten_messages
  afresh := by
    rintro before f answer after rfl hclose
    rw [← List.singleton_append, ← List.append_assoc, messages_append, opened_of_last f answer hclose]
  closed := by
    rintro before after rfl
    have hclosed : (serveAll {} (before ++ [.close])).2 = ⟨false, []⟩ := by
      rw [serveAll_append]
      rfl
    have hsilent : messages ⟨false, []⟩ after = [] := messages_of_gone rfl after
    refine ⟨by rw [hclosed], ?_⟩
    rw [← List.singleton_append, ← List.append_assoc, messages_append, hclosed, hsilent, List.append_nil,
      messages_concat]
    exact List.append_nil _

/-- A message that could not be handed over leaves nothing behind. -/
example : messages {} [.frame [1] true none, .frame [2] false (some (.error .notConnected)),
    .frame [3] true none, .frame [4] false none, .frame [5] true none, .close, .frame [6] false none]
      = [[[1], [2]], [[3], [4]]] := rfl

end Requester

end LogRelay
