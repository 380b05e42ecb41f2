import LogRelay.Proofs.Address.Grammar
import LogRelay.Proofs.Attempts

/-!
# Lists of addresses in normal form

A list of addresses is read piece by piece, and the URIs that come of it are in a form that reading leaves
alone: written down between commas they are read as the same addresses.

* `ReadsTo`: what comes of pieces that are read one after the other;
* `SameButBlanks`, `agree_parseList`: texts with the same pieces but for blank characters around them, and
  that these come to the same;
* `IsNormal`, `isNormal_of_parse`, `parse_uri`: the form of a URI that was read, and that it is read as itself;
* `parseList_eq_ok_iff`, `parseList_eq_error_iff`: lists that are read, and those that are not;
* `parseList_settles`: **a list is read piece by piece, and its URIs are read as themselves**.
-/

namespace LogRelay

/-- Faults that say the same, but for the text that they show as it was given. -/
inductive AddressFault.Alike : AddressFault → AddressFault → Prop where
  | noServers : Alike .noServers .noServers
  | blank (given other : String) : Alike (.blank given) (.blank other)
  | malformed (given other trimmed : String) : Alike (.malformed given trimmed) (.malformed other trimmed)

namespace Address

/-! ### Pieces -/

/-- What comes of pieces that are read one after the other: all of them are addresses, or one is not, and
all before it are. -/
inductive ReadsTo : List (List Char) → Except AddressFault (List Address) → Prop where
  | read {ps : List (List Char)} {as : List Address}
      (h : List.Forall₂ (fun p a => parse (String.ofList p) = .ok a) ps as) : ReadsTo ps (.ok as)
  | fault {before after : List (List Char)} {p : List Char} {f : AddressFault}
      (hbefore : ∀ q ∈ before, ∃ a, parse (String.ofList q) = .ok a)
      (hp : parse (String.ofList p) = .error f) : ReadsTo (before ++ p :: after) (.error f)

/-- Whether two texts have the same pieces between commas, but for blank characters around each of them. -/
def SameButBlanks (given other : String) : Prop :=
  ∃ ps qs, Text.Pieces ',' ps given.toList ∧ Text.Pieces ',' qs other.toList ∧
    List.Forall₂ (fun p q => ∃ core, Text.Framed core p ∧ Text.Framed core q) ps qs

/-- The form of an address that is read as itself, alone or in a list. -/
structure IsNormal (a : Address) : Prop where
  ne_nil : a.uri ≠ ""
  sound : ∀ c ∈ a.uri.toList, Text.isBlank c = false
  comma : ',' ∉ a.uri.toList
  scheme : "://".toList <:+: a.uri.toList

variable {given other : String} {a : Address} {as : List Address} {f : AddressFault}
  {ps : List (List Char)}

/-! ### One address -/

/-- Blank characters at its ends make no difference to an address. -/
theorem agree_parse (h : Text.trimChars given.toList = Text.trimChars other.toList) :
    Agree AddressFault.Alike (parse given) (parse other) := by
  simp only [parse, h]
  generalize Text.trimChars other.toList = cs
  split
  · exact .error (.blank given other)
  · split
    · exact .ok _
    · cases Text.splitLast ':' cs with
      | none => exact .ok _
      | some p =>
        simp only
        split
        · exact .error (.malformed given other _)
        · exact .ok _

theorem tcp_uri (cs : List Char) : (tcp cs).uri.toList = "tcp://".toList ++ cs := tcp_eq_iff.1 rfl

theorem isNormal_tcp {cs : List Char} (hsound : ∀ c ∈ cs, Text.isBlank c = false) (hcomma : ',' ∉ cs) :
    (tcp cs).IsNormal where
  ne_nil h := by
    have huri := tcp_uri cs
    rw [h] at huri
    exact absurd huri (by simp)
  sound c hc := by
    have hfront : ∀ c ∈ "tcp://".toList, Text.isBlank c = false := by simp [Text.isBlank]
    rw [tcp_uri] at hc
    exact (List.mem_append.1 hc).elim (hfront c) (hsound c)
  comma hc := by
    rw [tcp_uri] at hc
    exact (List.mem_append.1 hc).elim (by decide) hcomma
  scheme := by
    rw [tcp_uri]
    exact ⟨"tcp".toList, cs, rfl⟩

/-- An address that was read from a piece of a list is in normal form. -/
theorem isNormal_of_parse (h : parse given = .ok a) (hcomma : ',' ∉ given.toList) : a.IsNormal := by
  simp only [parse] at h
  have hcore : ',' ∉ Text.trimChars given.toList := fun hc => hcomma (Text.mem_of_mem_trimChars hc)
  generalize Text.trimChars given.toList = cs at h hcore
  split at h
  · exact absurd h (by simp)
  next hblank =>
    obtain ⟨hne, hsound⟩ : cs ≠ [] ∧ ∀ c ∈ cs, Text.isBlank c = false := by simpa using hblank
    split at h
    next hscheme =>
      obtain rfl := Except.ok.inj h
      exact ⟨by simpa using hne, by simpa using hsound, by simpa using hcore,
        by simpa using hasScheme_iff.1 hscheme⟩
    · split at h
      · obtain rfl := Except.ok.inj h
        have hport : ∀ c ∈ ':' :: (toString defaultPort).toList, Text.isBlank c = false ∧ c ≠ ',' := by
          rw [show (toString defaultPort).toList = ['5', '0', '0', '5'] from rfl]
          simp [Text.isBlank]
        refine isNormal_tcp (fun c hc => ?_) fun hc => ?_
        · exact (List.mem_append.1 hc).elim (hsound c) fun hc => (hport c hc).1
        · exact (List.mem_append.1 hc).elim hcore fun hc => (hport ',' hc).2 rfl
      · split at h
        · exact absurd h (by simp)
        · obtain rfl := Except.ok.inj h
          exact isNormal_tcp hsound hcore

/-- **An address in normal form is read as itself.** -/
theorem parse_uri (h : a.IsNormal) : parse a.uri = .ok a := by
  have htrim := Text.trimChars_of_sound h.sound
  have hnot : ¬ (a.uri.toList.isEmpty || a.uri.toList.any Text.isBlank) = true := by
    simpa using ⟨h.ne_nil, h.sound⟩
  simp only [parse, htrim, if_neg hnot, hasScheme_iff.2 h.scheme, if_true, String.ofList_toList]

/-- A text with nothing but blank characters is no address. -/
theorem exists_sound_of_parse (h : parse given = .ok a) : ∃ c ∈ given.toList, Text.isBlank c = false := by
  by_contra hnone
  have hblank : Text.trimChars given.toList = [] := Text.trimChars_eq_nil_iff.2 (by simpa using hnone)
  simp [parse, hblank] at h

/-! ### Lists of addresses -/

theorem parse_ne_noServers : parse given ≠ .error .noServers := by
  intro h
  cases concerns_of_parse h

theorem parseList_eq_noServers_iff :
    parseList given = .error .noServers ↔ ∀ c ∈ given.toList, Text.isBlank c = true := by
  rw [← Text.trimChars_eq_nil_iff, parseList]
  split
  next hblank => simpa using hblank
  next hblank =>
    rw [mapM_eq_error_iff]
    constructor
    · rintro ⟨before, p, after, -, -, hp⟩
      exact absurd hp parse_ne_noServers
    · intro h
      simp [h] at hblank

/-- A list with something in it is read piece by piece. -/
theorem parseList_of_sound (hps : Text.Pieces ',' ps given.toList)
    (hsome : ∃ c ∈ given.toList, Text.isBlank c = false) :
    parseList given = ps.mapM fun p => parse (String.ofList p) := by
  obtain ⟨c, hc, hsound⟩ := hsome
  have hne : ¬ (Text.trimChars given.toList).isEmpty = true := by
    intro hblank
    have hb := Text.trimChars_eq_nil_iff.1 (List.isEmpty_iff.1 hblank) c hc
    exact absurd hb (by simp [hsound])
  rw [parseList, if_neg hne, Text.pieces_iff.1 hps]

theorem readsTo_parseList (hps : Text.Pieces ',' ps given.toList)
    (hsome : ∃ c ∈ given.toList, Text.isBlank c = false) : ReadsTo ps (parseList given) := by
  rw [parseList_of_sound hps hsome]
  cases h : ps.mapM fun p => parse (String.ofList p) with
  | ok as => exact .read (mapM_eq_ok_iff.1 h)
  | error f =>
    obtain ⟨before, p, after, rfl, hbefore, hp⟩ := mapM_eq_error_iff.1 h
    exact .fault hbefore hp

/-- A list is read if each of its pieces is. -/
theorem parseList_eq_ok_iff (hps : Text.Pieces ',' ps given.toList) :
    parseList given = .ok as ↔ List.Forall₂ (fun p a => parse (String.ofList p) = .ok a) ps as := by
  by_cases hsome : ∃ c ∈ given.toList, Text.isBlank c = false
  · rw [parseList_of_sound hps hsome, mapM_eq_ok_iff]
  · have hblank : ∀ c ∈ given.toList, Text.isBlank c = true := by simpa using hsome
    rw [parseList_eq_noServers_iff.2 hblank]
    simp only [reduceCtorEq, false_iff]
    -- the first piece would have something in it
    rintro (- | ⟨hp, -⟩)
    · exact hps.ne_nil rfl
    · obtain ⟨c, hc, hsound⟩ := exists_sound_of_parse hp
      rw [String.toList_ofList] at hc
      exact hsome ⟨c, hps.mem List.mem_cons_self hc, hsound⟩

/-- The addresses of pieces without a comma are in normal form. -/
theorem isNormal_of_read (h : List.Forall₂ (fun p a => parse (String.ofList p) = .ok a) ps as)
    (hapart : ∀ p ∈ ps, ',' ∉ p) : ∀ a ∈ as, a.IsNormal := by
  induction h with
  | nil => exact fun _ ha => absurd ha List.not_mem_nil
  | cons hp _ ih =>
    obtain ⟨hcomma, hapart⟩ := List.forall_mem_cons.1 hapart
    exact List.forall_mem_cons.2 ⟨isNormal_of_parse hp (by rwa [String.toList_ofList]), ih hapart⟩

theorem SameButBlanks.symm (h : SameButBlanks given other) : SameButBlanks other given := by
  obtain ⟨ps, qs, hps, hqs, hsame⟩ := h
  refine ⟨qs, ps, hqs, hps, hsame.flip.imp ?_⟩
  rintro q p ⟨core, hp, hq⟩
  exact ⟨core, hq, hp⟩

/-- Where one text holds something, the other one does. -/
theorem SameButBlanks.exists_sound (h : SameButBlanks given other)
    (hsome : ∃ c ∈ given.toList, Text.isBlank c = false) :
    ∃ c ∈ other.toList, Text.isBlank c = false := by
  obtain ⟨ps, qs, hps, hqs, hsame⟩ := h
  by_contra hnone
  have hblank : ∀ c ∈ other.toList, Text.isBlank c = true := by simpa using hnone
  -- a text of blank characters is a single piece, and so is the other one
  have hcomma : ',' ∉ other.toList := fun hc => absurd (hblank ',' hc) (by decide)
  obtain rfl := (Text.pieces_iff.1 hqs).trans (Text.pieces_iff.1 (Text.pieces_single hcomma)).symm
  obtain ⟨p, _, ⟨core, hp, hq⟩, hrest, rfl⟩ := List.forall₂_cons_right_iff.1 hsame
  obtain rfl := List.forall₂_nil_right_iff.1 hrest
  obtain rfl : p = given.toList := by simpa using hps.joined
  have htrim := (Text.trimChars_of_framed hp).trans (Text.trimChars_of_framed hq).symm
  rw [Text.trimChars_eq_nil_iff.2 hblank, Text.trimChars_eq_nil_iff] at htrim
  obtain ⟨c, hc, hsound⟩ := hsome
  exact absurd (htrim c hc) (by simp [hsound])

/-- Blank characters around its pieces make no difference to a list. -/
theorem agree_parseList (h : SameButBlanks given other) :
    Agree AddressFault.Alike (parseList given) (parseList other) := by
  by_cases hsome : ∃ c ∈ given.toList, Text.isBlank c = false
  · have hsome' := h.exists_sound hsome
    obtain ⟨ps, qs, hps, hqs, hsame⟩ := h
    rw [parseList_of_sound hps hsome, parseList_of_sound hqs hsome']
    refine agree_mapM (hsame.imp ?_)
    rintro p q ⟨core, hp, hq⟩
    have htrim := (Text.trimChars_of_framed hp).trans (Text.trimChars_of_framed hq).symm
    exact agree_parse (by simpa using htrim)
  · have hnone := mt h.symm.exists_sound hsome
    rw [parseList_eq_noServers_iff.2 (by simpa using hsome),
      parseList_eq_noServers_iff.2 (by simpa using hnone)]
    exact .error .noServers

/-- Addresses in normal form, written down between commas, are read as they are. -/
theorem parseList_intercalate (hne : as ≠ []) (h : ∀ a ∈ as, a.IsNormal) :
    parseList (",".intercalate (as.map uri)) = .ok as := by
  have hps : Text.Pieces ',' (as.map fun a => a.uri.toList) (",".intercalate (as.map uri)).toList := by
    refine ⟨?_, ?_, by simpa using hne⟩
    · rw [String.toList_intercalate, List.map_map]
      rfl
    · simpa using fun a ha => (h a ha).comma
  rw [parseList_eq_ok_iff hps, List.forall₂_map_left_iff, List.forall₂_same]
  intro a ha
  rw [String.ofList_toList]
  exact parse_uri (h a ha)

/-- **A list is read piece by piece, and its URIs are read as themselves.**  Nothing but blank characters names
no servers; any other text comes to the fault of the first piece that is no address, and otherwise to one
address for each piece.  The URIs that come of it are in normal form, each is read as itself, and all of them
between commas are read as the same list.  Blank characters around the pieces make no difference: the list is
the same, and where there is none the fault is the same but for the text that it shows. -/
theorem parseList_settles (given : String) :
    (parseList given = .error .noServers ↔ ∀ c ∈ given.toList, Text.isBlank c = true) ∧
    (∃ ps, Text.Pieces ',' ps given.toList ∧
      ((∃ c ∈ given.toList, Text.isBlank c = false) → ReadsTo ps (parseList given))) ∧
    (∀ as, parseList given = .ok as →
      (∀ a ∈ as, a.IsNormal ∧ parse a.uri = .ok a) ∧
      parseList (",".intercalate (as.map uri)) = .ok as ∧
      ∀ other, SameButBlanks given other → parseList other = .ok as) ∧
    ∀ other, SameButBlanks given other → Agree AddressFault.Alike (parseList given) (parseList other) := by
  have hps : Text.Pieces ',' _ given.toList := Text.pieces_iff.2 rfl
  refine ⟨parseList_eq_noServers_iff, ⟨_, hps, readsTo_parseList hps⟩, fun as hread => ?_,
    fun other => agree_parseList⟩
  have hpieces := (parseList_eq_ok_iff hps).1 hread
  have hnormal := isNormal_of_read hpieces hps.apart
  have hne : as ≠ [] := by
    rintro rfl
    exact hps.ne_nil (List.forall₂_nil_right_iff.1 hpieces)
  exact ⟨fun a ha => ⟨hnormal a ha, parse_uri (hnormal a ha)⟩, parseList_intercalate hne hnormal,
    fun other hsame => Agree.eq_ok (hread ▸ agree_parseList hsame)⟩

/-- A bare host, a text with a scheme, and a host with colons in it and a port. -/
theorem parseList_settles_threeForms :
    parseList "a,\tipc://b , ::1:07" = .ok [⟨"tcp://a:5005"⟩, ⟨"ipc://b"⟩, ⟨"tcp://::1:07"⟩] ∧
      parseList "tcp://a:5005,ipc://b,tcp://::1:07"
        = .ok [⟨"tcp://a:5005"⟩, ⟨"ipc://b"⟩, ⟨"tcp://::1:07"⟩] ∧
      parseList "a\u00a0,ipc://b,::1:07"
        = .ok [⟨"tcp://a:5005"⟩, ⟨"ipc://b"⟩, ⟨"tcp://::1:07"⟩] := by
  have hread : parseList "a,\tipc://b , ::1:07"
      = .ok [⟨"tcp://a:5005"⟩, ⟨"ipc://b"⟩, ⟨"tcp://::1:07"⟩] := by decide
  have hps : Text.Pieces ',' ["a".toList, "\tipc://b ".toList, " ::1:07".toList]
      "a,\tipc://b , ::1:07".toList := Text.pieces_iff.2 rfl
  have hqs : Text.Pieces ',' ["a\u00a0".toList, "ipc://b".toList, "::1:07".toList]
      "a\u00a0,ipc://b,::1:07".toList := Text.pieces_iff.2 rfl
  have hframed (p left core right : List Char) (hp : p = left ++ core ++ right)
      (hleft : left.all Text.isBlank = true) (hright : right.all Text.isBlank = true) :
      Text.Framed core p := ⟨left, right, hp, List.all_eq_true.1 hleft, List.all_eq_true.1 hright⟩
  have hsame : SameButBlanks "a,\tipc://b , ::1:07" "a\u00a0,ipc://b,::1:07" :=
    ⟨_, _, hps, hqs,
      .cons ⟨"a".toList, hframed _ [] _ [] rfl rfl rfl, hframed _ [] _ ['\u00a0'] rfl rfl rfl⟩
      (.cons ⟨"ipc://b".toList, hframed _ ['\t'] _ [' '] rfl rfl rfl, hframed _ [] _ [] rfl rfl rfl⟩
      (.cons ⟨"::1:07".toList, hframed _ [' '] _ [] rfl rfl rfl, hframed _ [] _ [] rfl rfl rfl⟩ .nil))⟩
  obtain ⟨-, -, hsettles, -⟩ := parseList_settles "a,\tipc://b , ::1:07"
  obtain ⟨-, hjoined, hother⟩ := hsettles _ hread
  exact ⟨hread, hjoined, hother _ hsame⟩

end Address

end LogRelay
