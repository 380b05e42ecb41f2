import LogRelay.Proofs.Operation
import Mathlib.Data.List.Induction

/-!
# What happens to a link

Whoever uses a link directly asks for one operation after the other.  Calls succeed, fail or take too long in
any order, and all may be called off at any moment.  All that has happened says whether there is a session, and
whether the session is in the middle of a message.

* `Happening`: what can happen, and what of it matters;
* `Since`: something has happened, and since then nothing of another kind has;
* `replay`: the session after several things have happened, from one to the next;
* `isSome_replay`, `replay_eq_some_true`: **the same, in terms of what has happened since what.**
-/

namespace LogRelay

/-! ### What happens -/

/-- Something that happens to a link. -/
inductive Happening where
  | asked (g : Goal)
  | calledOff
  | began (c : Call)
  /-- What an operation wanted is answered, and it comes to a result if it ends with that. -/
  | answered (want : LinkWant) (a : LinkAnswer) (result? : Option LinkResult)

namespace Happening

/-- A socket is opened. -/
def opens : Happening → Bool
  | answered _ (.socket (.ok _)) _ => true
  | _ => false

/-- A socket is closed. -/
def closes : Happening → Bool
  | answered _ .closed _ => true
  | _ => false

/-- A collector is chosen. -/
def picks : Happening → Bool
  | answered _ (.picked _) _ => true
  | _ => false

/-- An attempt to connect begins. -/
def dials : Happening → Bool
  | began (.connect _) => true
  | _ => false

/-- An attempt to connect does not begin, since all was called off before. -/
def holdsBack : Happening → Bool
  | answered (.call (.connect _) _) (.outcome .withheld) _ => true
  | _ => false

/-- An attempt to connect succeeds. -/
def connects : Happening → Bool
  | answered (.call (.connect _) _) (.outcome (.done _)) _ => true
  | _ => false

/-- A call fails or takes too long, or the link is to be closed. -/
def loses : Happening → Bool
  | asked g => g = .close
  | answered _ (.outcome o) _ => o.isFailure
  | _ => false

/-- A frame is taken that is not the last of its message. -/
def takesPart : Happening → Bool
  | answered (.call (.send _ more) _) (.outcome (.done _)) _ => more
  | _ => false

/-- The last frame of a message is taken, or a reply comes in. -/
def finishes : Happening → Bool
  | answered (.call (.send _ more) _) (.outcome (.done _)) _ => !more
  | answered (.call .receive _) (.outcome (.done _)) _ => true
  | _ => false

/-- An operation ends since all was called off, and before that a socket is closed. -/
def givesUp : Happening → Bool
  | answered .close .closed r => r = some (.error .cancelled)
  | _ => false

end Happening

/-! ### Read from what has happened -/

/-- Something has happened, and since then nothing of another kind has. -/
def Since (p q : Happening → Bool) (es : List Happening) : Prop :=
  ∃ before e after, es = before ++ e :: after ∧ p e = true ∧ ∀ e' ∈ after, q e' = false

/-- Whether a session is in the middle of a message, if there is one, after something has happened. -/
def Happening.sessionAfter (e : Happening) (m : Option Bool) : Option Bool :=
  if e.connects then some false
  else if e.loses then none
  else if e.takesPart then m.map fun _ => true
  else if e.finishes then m.map fun _ => false
  else m

theorem Happening.connects_of_not_done {want : LinkWant} {o : Outcome} (result? : Option LinkResult)
    (ho : ∀ frame, o ≠ .done frame) : (answered want (.outcome o) result?).connects = false := by
  unfold connects
  split
  next h =>
    obtain ⟨-, h, -⟩ := Happening.answered.inj h
    exact absurd (LinkAnswer.outcome.inj h) (ho _)
  next => rfl

/-- A call that fails or takes too long ends the session. -/
theorem Happening.sessionAfter_of_isFailure {want : LinkWant} {o : Outcome} {result? : Option LinkResult}
    {m : Option Bool} (ho : o.isFailure = true) : (answered want (.outcome o) result?).sessionAfter m = none := by
  have hconnects : (answered want (.outcome o) result?).connects = false :=
    connects_of_not_done _ (by rintro _ rfl; exact absurd ho Bool.false_ne_true)
  have hloses : (answered want (.outcome o) result?).loses = true := ho
  rw [sessionAfter, hconnects, hloses]
  rfl

/-- A call that is called off leaves the session as it is. -/
theorem Happening.sessionAfter_of_isCallOff {want : LinkWant} {o : Outcome} {result? : Option LinkResult}
    {m : Option Bool} (ho : o.isCallOff = true) : (answered want (.outcome o) result?).sessionAfter m = m := by
  cases o with
  | done | failed | expired => exact absurd ho Bool.false_ne_true
  | withheld | abandoned =>
    cases want with
    | call c limit => cases c <;> rfl
    | socket | pick | rest | close | nothing => rfl

/-- Whether a session is in the middle of a message, if there is one, after several things have happened. -/
def replay (es : List Happening) : Option Bool := es.foldl (fun m e => e.sessionAfter m) none

/-- A frame is taken, or a reply comes in, or an attempt to connect succeeds. -/
def Happening.settles (e : Happening) : Bool := e.takesPart || e.finishes || e.connects

theorem Happening.takesPart_of_connects {e : Happening} (h : e.connects = true) : e.takesPart = false := by
  unfold connects at h
  split at h
  next => rfl
  next => exact absurd h Bool.false_ne_true

section

variable {p q : Happening → Bool} {es before after : List Happening} {e e' : Happening}

/-- What is in a list with one more entry at its end is that entry, or was there before. -/
theorem split_concat (h : es ++ [e'] = before ++ e :: after) :
    (before = es ∧ e = e' ∧ after = []) ∨ ∃ after', after = after' ++ [e'] ∧ es = before ++ e :: after' := by
  cases hafter : after using List.reverseRecOn with
  | nil =>
    rw [hafter] at h
    obtain ⟨rfl, hlast⟩ := List.append_inj' h rfl
    exact .inl ⟨rfl, (List.singleton_inj.1 hlast).symm, rfl⟩
  | append_singleton after' last =>
    rw [hafter, ← List.cons_append, ← List.append_assoc] at h
    obtain ⟨rfl, hlast⟩ := List.append_inj' h rfl
    obtain rfl := List.singleton_inj.1 hlast
    exact .inr ⟨after', rfl, rfl⟩

theorem not_since_nil : ¬ Since p q [] := by
  rintro ⟨before, e, after, h, -⟩
  exact absurd h (by simp)

/-- One more thing happens. -/
theorem since_concat : Since p q (es ++ [e]) ↔ p e = true ∨ (Since p q es ∧ q e = false) := by
  constructor
  · rintro ⟨before, e', after, h, hp, hq⟩
    rcases split_concat h with ⟨-, rfl, -⟩ | ⟨after', rfl, rfl⟩
    · exact .inl hp
    · refine .inr ⟨⟨before, e', after', rfl, hp, fun x hx => hq x (List.mem_append_left _ hx)⟩, ?_⟩
      exact hq e (List.mem_append_right _ List.mem_cons_self)
  · rintro (hp | ⟨⟨before, e', after, rfl, hp, hq⟩, he⟩)
    · exact ⟨es, e, [], rfl, hp, by simp⟩
    · refine ⟨before, e', after ++ [e], by simp, hp, ?_⟩
      intro x hx
      rcases List.mem_append.1 hx with hx | hx
      · exact hq x hx
      · exact List.mem_singleton.1 hx ▸ he

theorem replay_concat (es : List Happening) (e : Happening) :
    replay (es ++ [e]) = e.sessionAfter (replay es) := by
  rw [replay, replay, List.foldl_append]
  rfl

/-- **There is a session exactly if none was lost since the last success in connecting.** -/
theorem isSome_replay (es : List Happening) :
    (replay es).isSome = true ↔ Since Happening.connects Happening.loses es := by
  induction es using List.reverseRecOn with
  | nil => exact iff_of_false Bool.false_ne_true not_since_nil
  | append_singleton es e ih =>
    rw [replay_concat, since_concat, ← ih, Happening.sessionAfter]
    cases hconnects : e.connects with
    | true => simp
    | false =>
      cases hloses : e.loses with
      | true => simp
      | false => cases e.takesPart <;> cases e.finishes <;> simp

/-- **A session is in the middle of a message exactly if, of all that settles this, a frame with more to come
was the last.** -/
theorem replay_eq_some_true (es : List Happening) (h : (replay es).isSome = true) :
    replay es = some true ↔ Since Happening.takesPart Happening.settles es := by
  induction es using List.reverseRecOn with
  | nil => exact absurd h Bool.false_ne_true
  | append_singleton es e ih =>
    rw [replay_concat, Happening.sessionAfter] at h
    rw [replay_concat, since_concat, Happening.settles, Happening.sessionAfter]
    cases hconnects : e.connects with
    | true => simp [Happening.takesPart_of_connects hconnects]
    | false =>
      cases hloses : e.loses with
      | true => simp [hconnects, hloses] at h
      | false =>
        cases hpart : e.takesPart with
        | true =>
          obtain ⟨m, hm⟩ := Option.isSome_iff_exists.1 (by simpa [hconnects, hloses, hpart] using h)
          simp [hm]
        | false =>
          cases hfinishes : e.finishes with
          | true => simp
          | false => simpa using ih (by simpa [hconnects, hloses, hpart, hfinishes] using h)

end

end LogRelay
