import LogRelay.Proofs.Address.Choice
import LogRelay.Proofs.Desk.Order

/-!
# What is drawn of the random source

Batches are sealed under nonces, and collectors are chosen, with octets of one random source.  A `Drawing`
is a desk that draws from its source and keeps a list of what it drew.  Besides, whoever uses the desk may
have batches sealed on its own and give them to it, as often as it likes.

* `Block`, `Block.Tiles`: a piece of the source, and pieces that follow each other without a gap;
* `Drawing.move?`, `Drawing.run?`: steps and runs;
* `Drawing.Drawn`, `drawn_run?`: the pieces that were drawn, and the nonces among them;
* `Drawing.Placed`, `placed_run?`: which sealed batch is the one at each place;
* `Drawing.nonces_fresh`: **each batch that is sealed has a piece of the source for itself**, drawn before
  any of its frames goes out, and messages under one nonce are copies.
-/

namespace LogRelay

/-! ### Pieces of the source -/

/-- What octets are drawn for: a nonce, or a word that may choose a collector. -/
inductive Purpose where
  | nonce
  | word
deriving DecidableEq

def Purpose.size : Purpose → Nat
  | nonce => nonceSize
  | word => 8

/-- A piece of the random source; `start` octets were drawn before it. -/
structure Block where
  purpose : Purpose
  start : Nat
deriving DecidableEq

namespace Block

def stop (b : Block) : Nat := b.start + b.purpose.size

/-- Pieces that follow each other from one octet to another. -/
def Tiles : Nat → List Block → Nat → Prop
  | s, [], e => s = e
  | s, b :: bs, e => b.start = s ∧ Tiles b.stop bs e

theorem Tiles.append {s m e : Nat} {bs bs' : List Block} (h : Tiles s bs m) (h' : Tiles m bs' e) :
    Tiles s (bs ++ bs') e := by
  induction bs generalizing s with
  | nil =>
    obtain rfl : s = m := h
    exact h'
  | cons b bs ih => exact ⟨h.1, ih h.2⟩

theorem Tiles.le {s e : Nat} {bs : List Block} (h : Tiles s bs e) : ∀ b ∈ bs, s ≤ b.start := by
  induction bs generalizing s with
  | nil => simp
  | cons b bs ih =>
    obtain ⟨hs, hrest⟩ := h
    intro b' hb'
    rcases List.mem_cons.1 hb' with rfl | hb'
    · omega
    · have hle := ih hrest b' hb'
      have hstop : b.start ≤ b.stop := Nat.le_add_right _ _
      omega

/-- Pieces that follow each other do not overlap. -/
theorem Tiles.pairwise {s e : Nat} {bs : List Block} (h : Tiles s bs e) :
    bs.Pairwise fun b b' => b.stop ≤ b'.start := by
  induction bs generalizing s with
  | nil => exact .nil
  | cons b bs ih => exact List.pairwise_cons.2 ⟨h.2.le, ih h.2⟩

/-- So many words in a row. -/
def words (start : Nat) : Nat → List Block
  | 0 => []
  | n + 1 => ⟨.word, start⟩ :: words (start + 8) n

theorem tiles_words (start n : Nat) : Tiles start (words start n) (start + 8 * n) := by
  induction n generalizing start with
  | zero => rfl
  | succ n ih =>
    refine ⟨rfl, ?_⟩
    have hnext : start + 8 * (n + 1) = start + 8 + 8 * n := by omega
    rw [hnext]
    exact ih (start + 8)

theorem purpose_of_mem_words {start n : Nat} {b : Block} (h : b ∈ words start n) : b.purpose = .word := by
  induction n generalizing start with
  | zero => exact absurd h List.not_mem_nil
  | succ n ih =>
    rcases List.mem_cons.1 h with rfl | h
    · rfl
    · exact ih h

end Block

/-! ### A desk that draws -/

/-- A desk with its random source. -/
structure Drawing where
  desk : Desk
  random : Random
  /-- The pieces that were drawn, the first one first. -/
  blocks : List Block := []
  /-- The batches that were sealed, the first one first. -/
  sealed : List PreparedBatch := []
  /-- Which of the sealed batches was given at a place, if it is sealed. -/
  sealAt : Nat → Option Nat := fun _ => none

namespace Drawing

/-- A step.  `publish` and `run` are as for a desk; `prepare` has a batch sealed that stays with whoever
uses the desk, and `deliver` gives the desk a sealed batch, whatever became of it before; `nonce` gives the
courier the octets of a nonce, and `pick` gives the link its choice. -/
inductive Step where
  | callOff
  | publish (b : Batch)
  | prepare (b : Batch) (box : Box)
  | deliver (k : Nat) (state : DeliveryState) (attempts : UInt32)
  | run
  | queue (a : CourierAnswer)
  | nonce
  | call
  | pick
  | link (a : LinkAnswer)

def start (keys : Keys) (l : Link) (r : Random) : Drawing := { desk := .start keys l, random := r }

/-- The octets of a nonce are drawn, and a batch is sealed under them. -/
def sealUnder (x : Drawing) (b : Batch) (box : Box) : Drawing :=
  { x with
    random := (x.random.draw nonceSize).2
    blocks := x.blocks ++ [⟨.nonce, x.random.drawn⟩]
    sealed := x.sealed ++ [.ofBatch b box (x.random.draw nonceSize).1] }

/-- Whether an answer of the queues can do without a nonce. -/
def isPlain : CourierAnswer → Bool
  | .nonce _ => false
  | _ => true

/-- Whether an answer of the link can do without a choice. -/
def isUnchosen : LinkAnswer → Bool
  | .picked _ => false
  | _ => true

/-- The sealed batch that was given at a place. -/
def place (x : Drawing) (n k : Nat) : Nat → Option Nat := Function.update x.sealAt n (some k)

/-- What comes of a step, if it is possible. -/
def move? (x : Drawing) : Step → Option Drawing
  | .callOff => (x.desk.move? .callOff).map fun desk => { x with desk }
  | .publish b =>
    if b.isEmpty then (x.desk.move? (.publish b [])).map fun desk => { x with desk }
    else
      (x.desk.move? (.publish b (x.random.draw nonceSize).1)).map fun desk =>
        { x.sealUnder b (Box.ofKeys x.desk.keys) with
          desk, sealAt := x.place x.desk.given.length x.sealed.length }
  | .prepare b box => some (x.sealUnder b box)
  | .deliver k state attempts =>
    x.sealed[k]?.bind fun p =>
      (x.desk.move? (.deliver { p with state, attempts })).map fun desk =>
        { x with desk, sealAt := x.place x.desk.given.length k }
  | .run => (x.desk.move? .run).map fun desk => { x with desk }
  | .queue a => if isPlain a then (x.desk.move? (.queue a)).map fun desk => { x with desk } else none
  | .nonce =>
    match x.desk.engagement with
    | .running c =>
      match c.stage with
      | .preparing _ b =>
        (x.desk.move? (.queue (.nonce (x.random.draw nonceSize).1))).map fun desk =>
          { x.sealUnder b c.box with desk, sealAt := x.place x.desk.place x.sealed.length }
      | _ => none
    | _ => none
  | .call => (x.desk.move? .call).map fun desk => { x with desk }
  | .pick =>
    match x.desk.engagement.want with
    | .pick among =>
      (x.desk.move? (.link (.picked (among.choose x.random).1))).map fun desk =>
        { x with
          desk
          random := (among.choose x.random).2
          blocks := x.blocks ++
            Block.words x.random.drawn (((among.choose x.random).2.drawn - x.random.drawn) / 8) }
    | _ => none
  | .link a => if isUnchosen a then (x.desk.move? (.link a)).map fun desk => { x with desk } else none

/-- What comes of several steps, if each is possible. -/
abbrev run? : Drawing → List Step → Option Drawing := runSteps move?

/-! ### What a step can do -/

/-- What comes of each step that is possible. -/
inductive Moved (x : Drawing) : Step → Drawing → Prop where
  | calledOff : Moved x .callOff { x with desk.wire := x.desk.wire.callOff }
  | passed {l : Link} (he : x.desk.engagement = .idle l) {b : Batch} (hb : b.isEmpty = true) :
      Moved x (.publish b) { x with desk.given := x.desk.given ++ [b] }
  | published {l : Link} (he : x.desk.engagement = .idle l) {b : Batch} (hb : b.isEmpty = false)
      {p : PreparedBatch} (hp : p = .ofBatch b (Box.ofKeys x.desk.keys) (x.random.draw nonceSize).1) :
      Moved x (.publish b)
        { x.sealUnder b (Box.ofKeys x.desk.keys) with
          desk := x.desk.begin l p
          sealAt := x.place x.desk.given.length x.sealed.length }
  | prepared (b : Batch) (box : Box) : Moved x (.prepare b box) (x.sealUnder b box)
  | delivered {l : Link} (he : x.desk.engagement = .idle l) {k : Nat} {p : PreparedBatch}
      (hk : x.sealed[k]? = some p) (state : DeliveryState) (attempts : UInt32) :
      Moved x (.deliver k state attempts)
        { x with
          desk := x.desk.begin l { p with state, attempts }
          sealAt := x.place x.desk.given.length k }
  | ran {l : Link} (he : x.desk.engagement = .idle l) :
      Moved x .run { x with desk.engagement := .running (Courier.start x.desk.keys l) }
  | answered {c : Courier} (he : x.desk.engagement = .running c) {a : CourierAnswer}
      (ha : a.possible x.desk.wire.called c.want = true) (hplain : isPlain a = true) :
      Moved x (.queue a) { x with desk := x.desk.answerQueue c a }
  | sealed {c : Courier} (he : x.desk.engagement = .running c) {l : Link} {b : Batch}
      (hs : c.stage = .preparing l b)
      (ha : (CourierAnswer.nonce (x.random.draw nonceSize).1).possible x.desk.wire.called c.want = true) :
      Moved x .nonce
        { x.sealUnder b c.box with
          desk := x.desk.answerQueue c (.nonce (x.random.draw nonceSize).1)
          sealAt := x.place x.desk.place x.sealed.length }
  | called {w : Wire} (hw : x.desk.wire.begin? x.desk.engagement.want = some w) :
      Moved x .call { x with desk.wire := w }
  | picked {among : AddressSet} (hwant : x.desk.engagement.want = .pick among)
      (hp : x.desk.wire.possible x.desk.engagement.want (.picked (among.choose x.random).1) = true) :
      Moved x .pick
        { x with
          desk.engagement := x.desk.engagement.answer (.picked (among.choose x.random).1)
          random := (among.choose x.random).2
          blocks := x.blocks ++
            Block.words x.random.drawn (((among.choose x.random).2.drawn - x.random.drawn) / 8) }
  | linked {a : LinkAnswer} (hp : x.desk.wire.possible x.desk.engagement.want a = true)
      (hun : isUnchosen a = true) :
      Moved x (.link a)
        { x with
          desk.engagement := x.desk.engagement.answer a
          desk.wire := x.desk.wire.note x.desk.place a }

variable {x x' : Drawing} {d : Step}

/-- **A step that is possible is one of those above.** -/
theorem moved_of_move? (h : x.move? d = some x') : x.Moved d x' := by
  cases d with
  | callOff =>
    obtain rfl := Option.some.inj h
    exact .calledOff
  | publish b =>
    rw [move?] at h
    cases hb : b.isEmpty with
    | true =>
      rw [hb, if_pos rfl] at h
      obtain ⟨desk, hm, rfl⟩ := Option.map_eq_some_iff.1 h
      rw [Desk.move?] at hm
      split at hm
      next l he =>
        rw [hb, if_pos rfl] at hm
        obtain rfl := Option.some.inj hm
        exact .passed he hb
      next => exact absurd hm (by simp)
    | false =>
      have hlength : (x.random.draw nonceSize).1.length = nonceSize := Bytes.length_takePadded _ _
      rw [hb, if_neg (by simp)] at h
      obtain ⟨desk, hm, rfl⟩ := Option.map_eq_some_iff.1 h
      rw [Desk.move?] at hm
      split at hm
      next l he =>
        rw [hb, if_neg (by simp), if_pos hlength] at hm
        obtain rfl := Option.some.inj hm
        exact .published he hb rfl
      next => exact absurd hm (by simp)
  | prepare b box =>
    obtain rfl := Option.some.inj h
    exact .prepared b box
  | deliver k state attempts =>
    obtain ⟨p, hp, h⟩ := Option.bind_eq_some_iff.1 h
    cases he : x.desk.engagement with
    | idle l =>
      simp only [Desk.move?, he] at h
      obtain rfl := Option.some.inj h
      exact .delivered he hp state attempts
    | delivering | running =>
      simp only [Desk.move?, he] at h
      exact absurd h (by simp)
  | run =>
    rw [move?] at h
    cases he : x.desk.engagement with
    | idle l =>
      simp only [Desk.move?, he] at h
      obtain rfl := Option.some.inj h
      exact .ran he
    | delivering | running =>
      simp only [Desk.move?, he] at h
      exact absurd h (by simp)
  | queue a =>
    rw [move?] at h
    split at h
    next hplain =>
      cases he : x.desk.engagement with
      | running c =>
        obtain ⟨desk, hm, rfl⟩ := Option.map_eq_some_iff.1 h
        simp only [Desk.move?, he] at hm
        split at hm
        next ha =>
          obtain rfl := Option.some.inj hm
          exact .answered he ha hplain
        next => exact absurd hm (by simp)
      | idle | delivering =>
        simp only [Desk.move?, he] at h
        exact absurd h (by simp)
    next => exact absurd h (by simp)
  | nonce =>
    rw [move?] at h
    cases he : x.desk.engagement with
    | running c =>
      simp only [he] at h
      cases hs : c.stage with
      | preparing l b =>
        simp only [hs] at h
        obtain ⟨desk, hm, rfl⟩ := Option.map_eq_some_iff.1 h
        simp only [Desk.move?, he] at hm
        split at hm
        next ha =>
          obtain rfl := Option.some.inj hm
          exact .sealed he hs ha
        next => exact absurd hm (by simp)
      | ready | delivering | checking | handing | closing | finished =>
        simp only [hs] at h
        exact absurd h (by simp)
    | idle | delivering =>
      simp only [he] at h
      exact absurd h (by simp)
  | call =>
    obtain ⟨desk, hm, rfl⟩ := Option.map_eq_some_iff.1 h
    obtain ⟨w, hw, rfl⟩ := Option.map_eq_some_iff.1 hm
    exact .called hw
  | pick =>
    rw [move?] at h
    cases hwant : x.desk.engagement.want with
    | pick among =>
      simp only [hwant] at h
      obtain ⟨desk, hm, rfl⟩ := Option.map_eq_some_iff.1 h
      rw [Desk.move?] at hm
      split at hm
      next hp =>
        obtain rfl := Option.some.inj hm
        exact .picked hwant hp
      next => exact absurd hm (by simp)
    | socket | call | rest | close | nothing =>
      simp only [hwant] at h
      exact absurd h (by simp)
  | link a =>
    rw [move?] at h
    split at h
    next hun =>
      obtain ⟨desk, hm, rfl⟩ := Option.map_eq_some_iff.1 h
      rw [Desk.move?] at hm
      split at hm
      next hp =>
        obtain rfl := Option.some.inj hm
        exact .linked hp hun
      next => exact absurd hm (by simp)
    next => exact absurd h (by simp)

/-- The desk takes a step of its own, unless only a batch is sealed. -/
theorem accord_moved {ph : Phase} (h : x.Moved d x') (hacc : x.desk.Accord ph) :
    ∃ ph', x'.desk.Accord ph' := by
  cases h with
  | prepared b box => exact ⟨ph, hacc⟩
  | calledOff => exact Desk.accord_move? (e := .callOff) hacc rfl
  | @passed l he b hb =>
    refine Desk.accord_move? (e := .publish b []) hacc ?_
    simp only [Desk.move?, he, hb, if_true]
  | published he hb hp => exact ⟨ph, Desk.accord_begin hacc he _⟩
  | delivered he hk state attempts => exact ⟨ph, Desk.accord_begin hacc he _⟩
  | ran he =>
    refine Desk.accord_move? (e := .run) hacc ?_
    simp only [Desk.move?, he]
  | answered he ha hplain => exact ⟨ph, Desk.accord_queue hacc he ha⟩
  | sealed he hs ha => exact ⟨ph, Desk.accord_queue hacc he ha⟩
  | called hw =>
    refine Desk.accord_move? (e := .call) hacc ?_
    rw [Desk.move?, hw]
    rfl
  | @picked among hwant hp =>
    refine Desk.accord_move? (e := .link (.picked (among.choose x.random).1)) hacc ?_
    rw [Desk.move?, if_pos hp]
    rfl
  | @linked a hp hun =>
    refine Desk.accord_move? (e := .link a) hacc ?_
    rw [Desk.move?, if_pos hp]

/-! ### The pieces that were drawn -/

/-- The octets of a piece of a source. -/
def octets (r : Random) (b : Block) : Bytes :=
  Bytes.takePadded b.purpose.size (r.pending.drop (b.start - r.drawn))

/-- The pieces that were drawn for nonces. -/
def nonceBlocks (x : Drawing) : List Block := x.blocks.filter (·.purpose = .nonce)

/-- What was drawn since a source was `r` are pieces that follow each other, and the nonces of the sealed
batches are what was drawn for nonces. -/
structure Drawn (r : Random) (x : Drawing) : Prop where
  drawn : ∃ n, x.random = r.skip n
  tiles : Block.Tiles r.drawn x.blocks x.random.drawn
  nonces : x.sealed.map PreparedBatch.nonce = x.nonceBlocks.map (octets r)

variable {r : Random}

theorem drawn_start (keys : Keys) (l : Link) (r : Random) : (start keys l r).Drawn r where
  drawn := ⟨0, rfl⟩
  tiles := rfl
  nonces := rfl

theorem Drawn.sealUnder (h : x.Drawn r) (b : Batch) (box : Box) : (x.sealUnder b box).Drawn r := by
  obtain ⟨n, hn⟩ := h.drawn
  have hstart : x.random.drawn - r.drawn = n := by
    rw [hn, Random.drawn_skip]
    omega
  refine ⟨⟨n + nonceSize, ?_⟩, ?_, ?_⟩
  · show x.random.skip nonceSize = _
    rw [hn, Random.skip_skip]
  · exact h.tiles.append ⟨rfl, rfl⟩
  · have hblocks : (x.sealUnder b box).nonceBlocks = x.nonceBlocks ++ [⟨.nonce, x.random.drawn⟩] := by
      rw [nonceBlocks, Drawing.sealUnder, List.filter_append]
      rfl
    have hsealed : (x.sealUnder b box).sealed.map PreparedBatch.nonce
        = x.sealed.map PreparedBatch.nonce ++ [Bytes.takePadded nonceSize x.random.pending] := by
      rw [Drawing.sealUnder, List.map_append]
      rfl
    have hoctets : octets r ⟨.nonce, x.random.drawn⟩ = Bytes.takePadded nonceSize x.random.pending := by
      rw [octets, hstart, hn, Random.pending_skip]
      rfl
    rw [hblocks, hsealed, h.nonces, List.map_append, List.map_singleton, hoctets]

theorem Drawn.pick (h : x.Drawn r) (among : AddressSet) (desk : Desk) :
    Drawn r { x with
      desk
      random := (among.choose x.random).2
      blocks := x.blocks ++
        Block.words x.random.drawn (((among.choose x.random).2.drawn - x.random.drawn) / 8) } := by
  obtain ⟨n, hn⟩ := h.drawn
  obtain ⟨k, hk⟩ : ∃ k, (among.choose x.random).2 = x.random.skip (8 * k) := by
    obtain ⟨k, hsettles⟩ := among.exists_settles x.random
    exact ⟨k + 1, (AddressSet.choose_of_settles hsettles).2⟩
  have hcount : ((among.choose x.random).2.drawn - x.random.drawn) / 8 = k := by
    rw [hk, Random.drawn_skip]
    omega
  rw [hcount, hk]
  refine ⟨⟨n + 8 * k, by rw [hn, Random.skip_skip]⟩, h.tiles.append (Block.tiles_words _ _), ?_⟩
  have hnone : (Block.words x.random.drawn k).filter (·.purpose = .nonce) = [] := by
    rw [List.filter_eq_nil_iff]
    intro b hb
    rw [Block.purpose_of_mem_words hb]
    decide
  rw [nonceBlocks, List.filter_append, hnone, List.append_nil]
  exact h.nonces

/-- **Every step draws what comes next.** -/
theorem drawn_moved (hm : x.Moved d x') (h : x.Drawn r) : x'.Drawn r := by
  cases hm with
  | published he hb hp =>
    obtain ⟨hdrawn, htiles, hnonces⟩ := h.sealUnder _ (Box.ofKeys x.desk.keys)
    exact ⟨hdrawn, htiles, hnonces⟩
  | prepared b box => exact h.sealUnder b box
  | @sealed c he l b hs ha =>
    obtain ⟨hdrawn, htiles, hnonces⟩ := h.sealUnder b c.box
    exact ⟨hdrawn, htiles, hnonces⟩
  | picked hwant hp => exact h.pick _ _
  | calledOff | passed | delivered | ran | answered | called | linked =>
    exact ⟨h.drawn, h.tiles, h.nonces⟩

/-! ### Which sealed batch is where -/

/-- What stands in a list with one more item is an old item or the new one. -/
theorem getElem?_concat_cases {α : Type} {l : List α} {a b : α} {n : Nat}
    (h : (l ++ [a])[n]? = some b) : l[n]? = some b ∨ n = l.length ∧ a = b := by
  by_cases hlt : n < l.length
  · rw [List.getElem?_append_left hlt] at h
    exact .inl h
  · have hn : n = l.length := by
      have hbound := (List.getElem?_eq_some_iff.1 h).1
      rw [List.length_append, List.length_singleton] at hbound
      omega
    subst hn
    rw [List.getElem?_concat_length] at h
    exact .inr ⟨rfl, Option.some.inj h⟩

/-- A batch is about to be sealed. -/
def Preparing (e : Engagement) (b : Batch) : Prop := ∃ c l, e = .running c ∧ c.stage = .preparing l b

/-- Each offer is one of a sealed batch, and each message is one of an offer. -/
structure Placed (x : Drawing) : Prop where
  offers : ∀ o ∈ x.desk.offered, o.place < x.desk.given.length ∧
    ∃ k p, x.sealAt o.place = some k ∧ x.sealed[k]? = some p ∧ o.prepared.frames = p.frames
  given : ∀ n k, x.sealAt n = some k → ∃ p, x.sealed[k]? = some p ∧ x.desk.given[n]? = some p.batch
  messages : ∀ m ∈ x.desk.wire.sent, ∃ o ∈ x.desk.offered, m = ⟨o.place, o.prepared.frames.message⟩
  /-- A batch that is about to be sealed is not empty and was not offered. -/
  fresh : ∀ b, Preparing x.desk.engagement b → x.desk.given[x.desk.place]? = some b ∧ b.isEmpty = false ∧
    x.sealAt x.desk.place = none ∧ ∀ o ∈ x.desk.offered, o.place < x.desk.place
  /-- A batch that is not sealed is empty or about to be sealed. -/
  unsealed : ∀ n b, x.desk.given[n]? = some b → x.sealAt n = none →
    b.isEmpty = true ∨ n = x.desk.place ∧ Preparing x.desk.engagement b

theorem not_preparing_idle (l : Link) (b : Batch) : ¬ Preparing (.idle l) b := by
  rintro ⟨c, l', he, -⟩
  exact absurd he (by simp)

theorem placed_start (keys : Keys) (l : Link) (r : Random) : (start keys l r).Placed where
  offers := by simp [start, Desk.start]
  given := by simp [start]
  messages := by simp [start, Desk.start]
  fresh := fun b hb => absurd hb (not_preparing_idle l b)
  unsealed := by simp [start, Desk.start]

/-- One more batch is sealed. -/
theorem Placed.sealUnder (h : x.Placed) (b : Batch) (box : Box) : (x.sealUnder b box).Placed := by
  have hsealed {k : Nat} {p : PreparedBatch} (hk : x.sealed[k]? = some p) :
      (x.sealUnder b box).sealed[k]? = some p := by
    rw [Drawing.sealUnder, List.getElem?_append_left (List.getElem?_eq_some_iff.1 hk).1, hk]
  refine ⟨?_, ?_, h.messages, h.fresh, h.unsealed⟩
  · intro o ho
    obtain ⟨hplace, k, p, hat, hk, hframes⟩ := h.offers o ho
    exact ⟨hplace, k, p, hat, hsealed hk, hframes⟩
  · intro n k hn
    obtain ⟨p, hk, hgiven⟩ := h.given n k hn
    exact ⟨p, hsealed hk, hgiven⟩

/-- What the link is used for changes, but no batch is or was about to be sealed. -/
theorem Placed.goOn {e : Engagement} (h : x.Placed) (hold : ∀ b, ¬ Preparing x.desk.engagement b)
    (hnew : ∀ b, ¬ Preparing e b) : Placed { x with desk.engagement := e } := by
  refine ⟨h.offers, h.given, h.messages, fun b hb => absurd hb (hnew b), fun n b hb hn => ?_⟩
  exact .inl ((h.unsealed n b hb hn).resolve_right fun hno => hold b hno.2)

theorem Placed.sealAt_length (h : x.Placed) : x.sealAt x.desk.given.length = none := by
  cases hn : x.sealAt x.desk.given.length with
  | none => rfl
  | some k =>
    obtain ⟨p, -, hgiven⟩ := h.given _ k hn
    exact absurd (List.getElem?_eq_some_iff.1 hgiven).1 (Nat.lt_irrefl _)

/-- One more batch is given, which is empty or about to be sealed. -/
theorem Placed.give {e : Engagement} {b : Batch} (h : x.Placed)
    (hold : ∀ b, ¬ Preparing x.desk.engagement b)
    (hnew : ∀ b', Preparing e b' → b' = b ∧ b.isEmpty = false)
    (hb : b.isEmpty = true ∨ Preparing e b) :
    Placed { x with desk.engagement := e, desk.given := x.desk.given ++ [b] } := by
  have hplace : (x.desk.given ++ [b]).length - 1 = x.desk.given.length := by
    rw [List.length_append, List.length_singleton]
    omega
  have hlast : (x.desk.given ++ [b])[(x.desk.given ++ [b]).length - 1]? = some b := by
    rw [hplace, List.getElem?_concat_length]
  refine ⟨?_, ?_, h.messages, ?_, ?_⟩
  · intro o ho
    obtain ⟨hlt, hseal⟩ := h.offers o ho
    refine ⟨?_, hseal⟩
    show o.place < (x.desk.given ++ [b]).length
    rw [List.length_append]
    omega
  · intro n k hn
    obtain ⟨p, hk, hgiven⟩ := h.given n k hn
    refine ⟨p, hk, ?_⟩
    show (x.desk.given ++ [b])[n]? = some p.batch
    rw [List.getElem?_append_left (List.getElem?_eq_some_iff.1 hgiven).1, hgiven]
  · intro b' hb'
    obtain ⟨rfl, hempty⟩ := hnew b' hb'
    refine ⟨hlast, hempty, ?_, fun o ho => ?_⟩
    · show x.sealAt ((x.desk.given ++ [b']).length - 1) = none
      rw [hplace]
      exact h.sealAt_length
    · show o.place < (x.desk.given ++ [b']).length - 1
      rw [hplace]
      exact (h.offers o ho).1
  · intro n b' hb' hn
    rcases getElem?_concat_cases hb' with hb' | ⟨rfl, rfl⟩
    · exact .inl ((h.unsealed n b' hb' hn).resolve_right fun hno => hold b' hno.2)
    · exact hb.imp_right fun hprep => ⟨hplace.symm, hprep⟩

theorem place_self (x : Drawing) (n k : Nat) : x.place n k n = some k := Function.update_self _ _ _

theorem place_of_ne (x : Drawing) {n n' : Nat} (k : Nat) (h : n' ≠ n) : x.place n k n' = x.sealAt n' :=
  Function.update_of_ne h _ _

/-- A sealed batch is given and offered. -/
theorem Placed.begin {l : Link} {k : Nat} {p q : PreparedBatch} (h : x.Placed)
    (he : x.desk.engagement = .idle l) (hk : x.sealed[k]? = some p) (hbatch : q.batch = p.batch)
    (hframes : q.frames = p.frames) :
    Placed { x with desk := x.desk.begin l q, sealAt := x.place x.desk.given.length k } := by
  have hnew (b : Batch) : ¬ Preparing (x.desk.begin l q).engagement b := by
    rintro ⟨c, l', hno, -⟩
    exact absurd hno (by simp [Desk.begin, Engagement.ofDelivery, Delivery.start, Delivery.beginLeg])
  refine ⟨?_, ?_, ?_, fun b hb => absurd hb (hnew b), ?_⟩
  · intro o ho
    rcases List.mem_append.1 ho with ho | ho
    · obtain ⟨hlt, k', p', hat, hk', hf⟩ := h.offers o ho
      refine ⟨?_, k', p', ?_, hk', hf⟩
      · show o.place < (x.desk.given ++ [q.batch]).length
        rw [List.length_append]
        omega
      · exact (x.place_of_ne k (Nat.ne_of_lt hlt)).trans hat
    · obtain rfl := List.mem_singleton.1 ho
      refine ⟨?_, k, p, x.place_self _ _, hk, hframes⟩
      show x.desk.given.length < (x.desk.given ++ [q.batch]).length
      simp
  · intro n k' hn
    by_cases hlast : n = x.desk.given.length
    · subst hlast
      obtain rfl := Option.some.inj ((x.place_self _ _).symm.trans hn)
      refine ⟨p, hk, ?_⟩
      show (x.desk.given ++ [q.batch])[x.desk.given.length]? = some p.batch
      rw [List.getElem?_concat_length, hbatch]
    · obtain ⟨p', hk', hgiven⟩ := h.given n k' ((x.place_of_ne k hlast).symm.trans hn)
      refine ⟨p', hk', ?_⟩
      show (x.desk.given ++ [q.batch])[n]? = some p'.batch
      rw [List.getElem?_append_left (List.getElem?_eq_some_iff.1 hgiven).1, hgiven]
  · intro m hm
    obtain ⟨o, ho, rfl⟩ := h.messages m hm
    exact ⟨o, List.mem_append_left _ ho, rfl⟩
  · intro n b hb hn
    have hlast : n ≠ x.desk.given.length := by
      rintro rfl
      exact absurd ((x.place_self _ _).symm.trans hn) (by simp)
    have hb : x.desk.given[n]? = some b := (getElem?_concat_cases hb).resolve_right fun hno => hlast hno.1
    refine .inl ((h.unsealed n b hb ((x.place_of_ne k hlast).symm.trans hn)).resolve_right fun hno => ?_)
    rw [he] at hno
    exact not_preparing_idle l b hno.2

/-- The batch that was about to be sealed is sealed and offered. -/
theorem Placed.offer {c : Courier} {l : Link} {b : Batch} {k : Nat} {p : PreparedBatch} {e : Engagement}
    (h : x.Placed) (he : x.desk.engagement = .running c) (hs : c.stage = .preparing l b)
    (hk : x.sealed[k]? = some p) (hbatch : p.batch = b) (hnew : ∀ b, ¬ Preparing e b) :
    Placed { x with
      desk.engagement := e
      desk.offered := x.desk.offered ++ [⟨x.desk.place, p⟩]
      sealAt := x.place x.desk.place k } := by
  obtain ⟨hgiven, hempty, -, hearlier⟩ := h.fresh b ⟨c, l, he, hs⟩
  refine ⟨?_, ?_, ?_, fun b hb => absurd hb (hnew b), ?_⟩
  · intro o ho
    rcases List.mem_append.1 ho with ho | ho
    · obtain ⟨hlt, k', p', hat, hk', hf⟩ := h.offers o ho
      exact ⟨hlt, k', p', (x.place_of_ne k (Nat.ne_of_lt (hearlier o ho))).trans hat, hk', hf⟩
    · obtain rfl := List.mem_singleton.1 ho
      exact ⟨(List.getElem?_eq_some_iff.1 hgiven).1, k, p, x.place_self _ _, hk, rfl⟩
  · intro n k' hn
    by_cases hlast : n = x.desk.place
    · subst hlast
      obtain rfl := Option.some.inj ((x.place_self _ _).symm.trans hn)
      exact ⟨p, hk, hgiven.trans (congrArg some hbatch.symm)⟩
    · exact h.given n k' ((x.place_of_ne k hlast).symm.trans hn)
  · intro m hm
    obtain ⟨o, ho, rfl⟩ := h.messages m hm
    exact ⟨o, List.mem_append_left _ ho, rfl⟩
  · intro n b' hb' hn
    have hlast : n ≠ x.desk.place := by
      rintro rfl
      exact absurd ((x.place_self _ _).symm.trans hn) (by simp)
    exact .inl ((h.unsealed n b' hb' ((x.place_of_ne k hlast).symm.trans hn)).resolve_right
      fun hno => hlast hno.1)

/-- The queues answer. -/
theorem Placed.answered {c : Courier} {a : CourierAnswer} (h : x.Placed)
    (he : x.desk.engagement = .running c)
    (ha : a.possible x.desk.wire.called c.want = true) (hplain : isPlain a = true) :
    Placed { x with desk := x.desk.answerQueue c a } := by
  have ht := Courier.answered_of_possible ha
  have hold (hs : ∀ l b, c.stage ≠ .preparing l b) (b : Batch) : ¬ Preparing x.desk.engagement b := by
    rintro ⟨c₁, l, he₁, hs₁⟩
    obtain rfl := Engagement.running.inj (he.symm.trans he₁)
    exact hs l b hs₁
  have hnew {c' : Courier} (hs : ∀ l b, c'.stage ≠ .preparing l b) (b : Batch) :
      ¬ Preparing (.running c') b := by
    rintro ⟨c₁, l, he₁, hs₁⟩
    obtain rfl := Engagement.running.inj he₁
    exact hs l b hs₁
  unfold Desk.answerQueue
  generalize (c.answer a).next = c' at ht ⊢
  cases ht with
  | @took l hs b =>
    refine h.give (hold (by simp [hs])) ?_ ?_
    · rintro b' ⟨c₁, l', he₁, hs₁⟩
      obtain rfl := Engagement.running.inj he₁
      cases hb : b.isEmpty with
      | true => simp [hb] at hs₁
      | false =>
        simp only [hb, Bool.false_eq_true, if_false] at hs₁
        exact ⟨(CourierStage.preparing.inj hs₁).2.symm, rfl⟩
    · cases hb : b.isEmpty with
      | true => exact .inl rfl
      | false => exact .inr ⟨_, l, rfl, rfl⟩
  | @ended l hs t hnone notices =>
    have hstopped := Courier.stage_of_verdict? (Courier.verdict?_wrapUp c notices l (.ok ()))
    have hgone := h.goOn (hold (by simp [hs])) (hnew hstopped.1)
    cases t with
    | item b => exact absurd rfl (hnone b)
    | closed | cancelled => exact hgone
  | prepared hs bs => exact absurd hplain (by simp [isPlain])
  | probed hs gone =>
    refine h.goOn (hold (by simp [hs])) (hnew ?_)
    cases gone <;> simp
  | handed hs t => exact h.goOn (hold (by simp [hs])) (hnew (by simp))

/-- A message that goes out is one of the offers. -/
theorem messages_note {d : Desk} {ph : Phase} {a : LinkAnswer} {m : Message} (hacc : d.Accord ph)
    (hm : m ∈ (d.wire.note d.place a).sent) :
    m ∈ d.wire.sent ∨ ∃ o ∈ d.offered, m = ⟨o.place, o.prepared.frames.message⟩ := by
  cases Wire.noted d.wire d.place a with
  | message frame x hu ha hs hk =>
    obtain ⟨o, ho, hplace, hframes⟩ := hacc.message_of_under hu
    rw [hs, hframes] at hm
    rcases List.mem_append.1 hm with hm | hm
    · exact .inl hm
    · exact .inr ⟨o, ho, by rw [List.mem_singleton.1 hm, hplace]⟩
  | reply y hu ha hs hk =>
    rw [hs] at hm
    exact .inl hm
  | nothing hs hk ht =>
    rw [hs] at hm
    exact .inl hm

theorem Placed.linked {a : LinkAnswer} {ph : Phase} (h : x.Placed) (hacc : x.desk.Accord ph)
    (hp : x.desk.wire.possible x.desk.engagement.want a = true) :
    Placed { x with
      desk.engagement := x.desk.engagement.answer a
      desk.wire := x.desk.wire.note x.desk.place a } := by
  have hfit := Wire.fits_of_possible hp
  have hold (b : Batch) : ¬ Preparing x.desk.engagement b := by
    rintro ⟨c, l, he, hs⟩
    rw [he] at hfit
    have hwant := Engagement.want_of_fits hfit
    rw [Courier.want, hs] at hwant
    exact absurd hwant (by simp)
  have hnew (b : Batch) : ¬ Preparing (x.desk.engagement.answer a) b := by
    rintro ⟨c, l, he, hs⟩
    cases hx : x.desk.engagement with
    | idle l' =>
      rw [hx] at he
      exact absurd he (by simp [Engagement.answer])
    | delivering y =>
      rw [hx, Engagement.answer, Engagement.ofDelivery] at he
      split at he <;> exact absurd he (by simp)
    | running c' =>
      rw [hx] at he hfit
      obtain rfl := Engagement.running.inj he
      exact Courier.not_preparing_of_answer_link (Engagement.want_of_fits hfit) hs
  refine ⟨h.offers, h.given, ?_, fun b hb => absurd hb (hnew b), ?_⟩
  · intro m hm
    rcases messages_note hacc hm with hm | hm
    · exact h.messages m hm
    · exact hm
  · intro n b hb hn
    exact .inl ((h.unsealed n b hb hn).resolve_right fun hno => hold b hno.2)

/-- **Every step keeps it so.** -/
theorem placed_moved {ph : Phase} (hm : x.Moved d x') (hacc : x.desk.Accord ph) (h : x.Placed) :
    x'.Placed := by
  cases hm with
  | calledOff => exact ⟨h.offers, h.given, h.messages, h.fresh, h.unsealed⟩
  | called hw =>
    obtain ⟨k, limit, -, -, rfl⟩ := Wire.of_begin? hw
    exact ⟨h.offers, h.given, h.messages, h.fresh, h.unsealed⟩
  | @passed l he b hb =>
    have hnone (b : Batch) : ¬ Preparing x.desk.engagement b := by
      rw [he]
      exact not_preparing_idle l b
    exact h.give hnone (fun b' hno => absurd hno (hnone b')) (.inl hb)
  | @published l he b hb p hp =>
    have hlast : (x.sealUnder b (Box.ofKeys x.desk.keys)).sealed[x.sealed.length]? = some p := by
      rw [Drawing.sealUnder, List.getElem?_concat_length, hp]
    exact (h.sealUnder b (Box.ofKeys x.desk.keys)).begin he hlast rfl rfl
  | prepared b box => exact h.sealUnder b box
  | delivered he hk state attempts => exact h.begin he hk rfl rfl
  | @ran l he =>
    refine h.goOn ?_ ?_
    · rw [he]
      exact not_preparing_idle l
    · rintro b ⟨c, l', hc, hs⟩
      obtain rfl := Engagement.running.inj hc
      exact absurd hs (by simp [Courier.start])
  | answered he ha hplain => exact h.answered he ha hplain
  | @sealed c he l b hs ha =>
    have hlast : (x.sealUnder b c.box).sealed[x.sealed.length]?
        = some (.ofBatch b c.box (x.random.draw nonceSize).1) := by
      rw [Drawing.sealUnder, List.getElem?_concat_length]
    have hnew (b' : Batch) :
        ¬ Preparing (.running (c.answer (.nonce (x.random.draw nonceSize).1)).next) b' := by
      rintro ⟨c', l', hc, hs'⟩
      obtain rfl := Engagement.running.inj hc
      rw [Courier.next_answer_nonce hs] at hs'
      exact absurd hs' (by simp)
    have hoffer := (h.sealUnder b c.box).offer he hs hlast rfl hnew
    simp only [Desk.answerQueue, hs]
    exact hoffer
  | picked hwant hp =>
    obtain ⟨hoffers, hgiven, hmessages, hfresh, hunsealed⟩ := h.linked hacc hp
    exact ⟨hoffers, hgiven, hmessages, hfresh, hunsealed⟩
  | linked hp hun => exact h.linked hacc hp

/-! ### Every nonce has its batch -/

/-- A place that had no sealed batch gets one, and the others stay. -/
theorem place_of_some {n n' k k' : Nat} (hn : x.sealAt n = none) (h : x.sealAt n' = some k') :
    x.place n k n' = some k' := by
  have hne : n' ≠ n := by
    rintro rfl
    exact absurd (hn.symm.trans h) (by simp)
  rw [x.place_of_ne k hne, h]

/-- Each sealed batch was to be sealed for itself, or is not empty and was given to the desk. -/
def Wanted (ds : List Step) (x : Drawing) : Prop :=
  ∀ k p, x.sealed[k]? = some p → (∃ box, Step.prepare p.batch box ∈ ds) ∨
    p.batch.isEmpty = false ∧ ∃ n, x.sealAt n = some k

variable {ds : List Step}

theorem of_sealUnder {b : Batch} {box : Box} {k : Nat} {p : PreparedBatch}
    (h : (x.sealUnder b box).sealed[k]? = some p) :
    x.sealed[k]? = some p ∨ k = x.sealed.length ∧ p.batch = b := by
  rcases getElem?_concat_cases h with h | ⟨rfl, rfl⟩
  · exact .inl h
  · exact .inr ⟨rfl, rfl⟩

/-- One more batch is sealed and gets a place. -/
theorem Wanted.seal {b : Batch} {box : Box} {desk : Desk} {n : Nat} (h : x.Wanted ds)
    (hb : b.isEmpty = false) (hn : x.sealAt n = none) :
    Wanted ds { x.sealUnder b box with desk, sealAt := x.place n x.sealed.length } := by
  intro k p hk
  rcases of_sealUnder hk with hk | ⟨rfl, rfl⟩
  · exact (h k p hk).imp_right fun ⟨hempty, n', hn'⟩ => ⟨hempty, n', place_of_some hn hn'⟩
  · exact .inr ⟨hb, n, x.place_self _ _⟩

theorem wanted_moved (hd : d ∈ ds) (hm : x.Moved d x') (hplaced : x.Placed) (h : x.Wanted ds) :
    x'.Wanted ds := by
  cases hm with
  | published he hb hp => exact h.seal hb hplaced.sealAt_length
  | @sealed c he l b hs ha =>
    obtain ⟨-, hempty, hnone, -⟩ := hplaced.fresh b ⟨c, l, he, hs⟩
    exact h.seal hempty hnone
  | prepared b box =>
    intro k p hk
    rcases of_sealUnder hk with hk | ⟨rfl, rfl⟩
    · exact h k p hk
    · exact .inl ⟨box, hd⟩
  | delivered he hk state attempts =>
    intro k p hk
    exact (h k p hk).imp_right fun ⟨hempty, n, hn⟩ => ⟨hempty, n, place_of_some hplaced.sealAt_length hn⟩
  | calledOff | passed | ran | answered | called | picked | linked => exact h

end Drawing

/-! ### The frames on a socket -/

/-- Only frames of offered batches are sent. -/
theorem frames_of_traffic {cut : Prop} {offered : List Frames} {log : List Entry} {ph : Phase}
    (h : Traffic cut offered log ph) {frame : Bytes} {more : Bool} {o : Option Outcome}
    (hmem : .call (.send frame more) o ∈ log) :
    ∃ f ∈ offered, frame = if more then f.nonce else f.ciphertext := by
  have hlast (more' : Bool) {log : List Entry} {f : Frames} {o' : Option Outcome} (hf : f ∈ offered)
      (ih : .call (.send frame more) o ∈ log → ∃ f ∈ offered, frame = if more then f.nonce else f.ciphertext)
      (hmem : .call (.send frame more) o ∈
        log ++ [.call (.send (if more' then f.nonce else f.ciphertext) more') o']) :
      ∃ f ∈ offered, frame = if more then f.nonce else f.ciphertext := by
    rcases List.mem_append.1 hmem with hmem | hmem
    · exact ih hmem
    · obtain ⟨hcall, -⟩ := Entry.call.inj (List.mem_singleton.1 hmem)
      obtain ⟨rfl, rfl⟩ := Call.send.inj hcall
      exact ⟨f, hf, rfl⟩
  induction h with
  | opened => exact absurd hmem List.not_mem_nil
  | refused _ a ho ih => exact ih (by simpa using hmem)
  | accepted _ a x ih => exact ih (by simpa using hmem)
  | replied _ x ih => exact ih (by simpa using hmem)
  | replyLost _ ho ih => exact ih (by simpa using hmem)
  | closed _ hph hcut ih => exact ih (by simpa using hmem)
  | nonceSent _ hf x ih => exact hlast true hf ih hmem
  | nonceLost _ hf ho ih => exact hlast true hf ih hmem
  | ciphertextSent h x ih =>
    obtain ⟨base, y, -, hf, -⟩ := parts_of_traffic h
    exact hlast false hf ih hmem
  | ciphertextLost h ho ih =>
    obtain ⟨base, y, -, hf, -⟩ := parts_of_traffic h
    exact hlast false hf ih hmem

namespace Drawing

variable {x : Drawing} {r : Random} {ds : List Step} {keys : Keys} {settings : LinkSettings} {l : Link}

theorem keeps_run? (hl : Link.ofSettings settings = .ok l) (h : (start keys l r).run? ds = some x) :
    (∃ ph, x.desk.Accord ph) ∧ x.Drawn r ∧ x.Placed ∧ x.Wanted ds := by
  refine runSteps_induction_of_mem (P := fun x => (∃ ph, x.desk.Accord ph) ∧ x.Drawn r ∧ x.Placed ∧ x.Wanted ds) ?_ h ?_
  · rintro d hd x x' ⟨⟨ph, hacc⟩, hdrawn, hplaced, hwanted⟩ hm
    have hm := moved_of_move? hm
    exact ⟨accord_moved hm hacc, drawn_moved hm hdrawn, placed_moved hm hacc hplaced,
      wanted_moved hd hm hplaced hwanted⟩
  · exact ⟨⟨.closed, Desk.accord_start keys (Desk.session_of_ofSettings hl)⟩, drawn_start keys l r,
      placed_start keys l r, fun k p hk => absurd hk (by simp [start])⟩

/-- The frames that are sent are those of sealed batches. -/
theorem Placed.frames_sealed (h : x.Placed) {f : Frames} (hf : f ∈ x.desk.frames) :
    ∃ p ∈ x.sealed, p.frames = f := by
  obtain ⟨o, ho, rfl⟩ := List.mem_map.1 hf
  obtain ⟨-, k, p, -, hk, hframes⟩ := h.offers o ho
  exact ⟨p, List.mem_of_getElem? hk, hframes.symm⟩

/-- **No nonce is ever used twice.**  After any run of a desk and whoever uses it, what was drawn of the
source is cut into pieces without gaps or overlaps, each for a nonce or for a word.  The pieces for nonces
are the nonces of the sealed batches, in turn; a batch is sealed because it is not empty and was given to
the desk, once for its place however often it is sent, or because whoever uses the desk had it sealed.  A
frame is sent only when its batch is sealed; and the messages of one sealed batch are copies. -/
theorem nonces_fresh (hl : Link.ofSettings settings = .ok l) (h : (start keys l r).run? ds = some x) :
    (x.random = r.skip (x.random.drawn - r.drawn) ∧ Block.Tiles r.drawn x.blocks x.random.drawn ∧
      x.blocks.Pairwise fun b b' => b.stop ≤ b'.start) ∧
    x.sealed.map PreparedBatch.nonce = x.nonceBlocks.map (octets r) ∧
    (∀ k p, x.sealed[k]? = some p → (∃ box, Step.prepare p.batch box ∈ ds) ∨
      p.batch.isEmpty = false ∧ ∃ n, x.sealAt n = some k) ∧
    (∀ n b, x.desk.given[n]? = some b →
      (∃ k p, x.sealAt n = some k ∧ x.sealed[k]? = some p ∧ p.batch = b) ∨
      x.sealAt n = none ∧ (b.isEmpty = true ∨ n = x.desk.place ∧ Preparing x.desk.engagement b)) ∧
    (∀ log ∈ x.desk.wire.logs, ∀ frame more o, .call (.send frame more) o ∈ log →
      ∃ p ∈ x.sealed, frame = if more then p.nonce else p.ciphertext) ∧
    (∀ m ∈ x.desk.wire.sent, ∃ k p, x.sealAt m.place = some k ∧ x.sealed[k]? = some p ∧
      m.frames = [p.nonce, p.ciphertext]) ∧
    ∀ m ∈ x.desk.wire.sent, ∀ m' ∈ x.desk.wire.sent, x.sealAt m.place = x.sealAt m'.place →
      m.frames = m'.frames := by
  obtain ⟨⟨ph, hacc⟩, hdrawn, hplaced, hwanted⟩ := keeps_run? hl h
  have hmessage (m : Message) (hm : m ∈ x.desk.wire.sent) :
      ∃ k p, x.sealAt m.place = some k ∧ x.sealed[k]? = some p ∧ m.frames = [p.nonce, p.ciphertext] := by
    obtain ⟨o, ho, rfl⟩ := hplaced.messages m hm
    obtain ⟨-, k, p, hat, hk, hframes⟩ := hplaced.offers o ho
    refine ⟨k, p, hat, hk, ?_⟩
    show o.prepared.frames.message = p.frames.message
    rw [hframes]
  refine ⟨⟨?_, hdrawn.tiles, hdrawn.tiles.pairwise⟩, hdrawn.nonces, hwanted, ?_, ?_, hmessage, ?_⟩
  · obtain ⟨n, hn⟩ := hdrawn.drawn
    have hcount : x.random.drawn - r.drawn = n := by
      rw [hn, Random.drawn_skip]
      omega
    rw [hcount, hn]
  · intro n b hb
    cases hn : x.sealAt n with
    | none => exact .inr ⟨rfl, hplaced.unsealed n b hb hn⟩
    | some k =>
      obtain ⟨p, hk, hgiven⟩ := hplaced.given n k hn
      exact .inl ⟨k, p, rfl, hk, Option.some.inj (hgiven.symm.trans hb)⟩
  · intro log hlog frame more o hcall
    obtain ⟨later, earlier, hlogs⟩ := List.append_of_mem hlog
    obtain ⟨ph', htraffic, -, -⟩ := hacc.traffic hlogs
    obtain ⟨f, hf, hframe⟩ := frames_of_traffic htraffic hcall
    obtain ⟨p, hp, rfl⟩ := hplaced.frames_sealed hf
    exact ⟨p, hp, hframe⟩
  · intro m hm m' hm' hsame
    obtain ⟨k, p, hat, hk, hframes⟩ := hmessage m hm
    obtain ⟨k', p', hat', hk', hframes'⟩ := hmessage m' hm'
    obtain rfl : k = k' := Option.some.inj (hat.symm.trans (hsame.trans hat'))
    obtain rfl : p = p' := Option.some.inj (hk.symm.trans hk')
    rw [hframes, hframes']

/-! ### One batch that is sent twice -/

/-- A step by which a collector is chosen with the next word. -/
def pickNext (x : Drawing) (a : Address) : Option Drawing :=
  (x.desk.move? (.link (.picked a))).map fun desk =>
    { x with desk, random := x.random.skip 8, blocks := x.blocks ++ [⟨.word, x.random.drawn⟩] }

theorem move?_pick {among : AddressSet} {a : Address} (hwant : x.desk.engagement.want = .pick among)
    (h : among.pick? x.random.word.1 = some a) : x.move? .pick = x.pickNext a := by
  have hcount : ((x.random.skip 8).drawn - x.random.drawn) / 8 = 1 := by
    rw [Random.drawn_skip]
    omega
  simp only [move?, hwant, AddressSet.choose_of_pick?_eq_some h, hcount, pickNext]
  rfl

/-- A call is made and succeeds. -/
def callDone : List Step := [.call, .link (.outcome (.done []))]

/-- A batch is sealed and kept, an empty one is published, and the sealed one is to be delivered. -/
def beforePick : List Step :=
  [.prepare (Desk.lineBatch 1) (Box.ofKeys ⟨.zero, .zero⟩), .publish ⟨2, []⟩, .deliver 0 .prepared 0,
    .link (.socket (.ok ()))]

/-- It is delivered, and then delivered once more. -/
def afterPick : List Step :=
  callDone ++ callDone ++ callDone ++ callDone ++ [.deliver 0 .delivered 1] ++ callDone ++ callDone

/-- A desk for one collector with a source of which five octets were drawn before. -/
def sole : Drawing := start ⟨.zero, .zero⟩ Desk.soleLink ⟨[1, 2, 3], 5⟩

theorem nonces_fresh_twice : ∃ x, Link.ofSettings Desk.soleCollector = .ok Desk.soleLink ∧
    sole.run? (beforePick ++ .pick :: afterPick) = some x ∧
    x.blocks = [⟨.nonce, 5⟩, ⟨.word, 29⟩] ∧ x.desk.wire.sent.map Message.place = [1, 2] ∧
    x.sealed.map PreparedBatch.nonce = x.nonceBlocks.map (octets ⟨[1, 2, 3], 5⟩) ∧
    ∀ m ∈ x.desk.wire.sent, ∀ m' ∈ x.desk.wire.sent, x.sealAt m.place = x.sealAt m'.place →
      m.frames = m'.frames := by
  have hsplit : sole.run? (beforePick ++ .pick :: afterPick)
      = (sole.run? beforePick).bind fun x =>
          (x.pickNext ⟨"tcp://collector:5005"⟩).bind fun x => x.run? afterPick := by
    obtain ⟨y, hy⟩ : ∃ y, sole.run? beforePick = some y := Option.isSome_iff_exists.1 rfl
    have hwant : (sole.run? beforePick).map (fun x => x.desk.engagement.want)
        = some (.pick Desk.soleCollector.servers) := rfl
    have hword : (sole.run? beforePick).map (fun x => Desk.soleCollector.servers.pick? x.random.word.1)
        = some (some ⟨"tcp://collector:5005"⟩) := by rfl
    rw [hy] at hwant hword
    rw [run?] at hy ⊢
    rw [runSteps_append, hy, Option.bind_some, Option.bind_some, runSteps,
      move?_pick (Option.some.inj hwant) (Option.some.inj hword)]
  obtain ⟨x, hx⟩ : ∃ x, sole.run? (beforePick ++ .pick :: afterPick) = some x := by
    rw [hsplit]
    exact Option.isSome_iff_exists.1 rfl
  have hblocks : (sole.run? (beforePick ++ .pick :: afterPick)).map Drawing.blocks
      = some [⟨.nonce, 5⟩, ⟨.word, 29⟩] := by
    rw [hsplit]
    rfl
  have hplaces : (sole.run? (beforePick ++ .pick :: afterPick)).map
      (fun x => x.desk.wire.sent.map Message.place) = some [1, 2] := by
    rw [hsplit]
    rfl
  rw [hx] at hblocks hplaces
  have hmade : Link.ofSettings Desk.soleCollector = .ok Desk.soleLink := rfl
  obtain ⟨-, hnonces, -, -, -, -, hcopies⟩ := nonces_fresh hmade hx
  exact ⟨x, hmade, hx, Option.some.inj hblocks, Option.some.inj hplaces, hnonces, hcopies⟩

end Drawing

end LogRelay
