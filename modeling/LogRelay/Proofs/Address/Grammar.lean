import LogRelay.Address.Basic
import LogRelay.Proofs.Text.Parts
import Mathlib.Data.List.Infix

/-!
# The grammar of addresses

A text without a scheme names a collector if it is, but for blank characters at its ends, a host or a host
and a port.  The grammar is said without reading the text, and leaves open what may stand for a port.

* `Names`: what is a host, or a host and a port, and the URI of each;
* `FollowsGrammar`: a text is read exactly if the grammar has it, and else the fault is about the whole text;
* `parse_followsGrammar`: **texts without a scheme follow the grammar in which a port may have a plus sign**;
* `plus_sign_kept`: they do not follow the one in which it may not.
-/

namespace LogRelay

/-- Faults of a text, whatever is wrong with it. -/
inductive AddressFault.Concerns (given : String) : AddressFault → Prop where
  | blank : Concerns given (.blank given)
  | malformed (trimmed : String) : Concerns given (.malformed given trimmed)

theorem AddressFault.Concerns.message_eq {given : String} {f : AddressFault} (h : f.Concerns given) :
    f.message = "Invalid server address '" ++ given ++ "'" := by
  cases h <;> rfl

namespace Address

/-! ### The grammar -/

/-- The texts that name a collector, and the URIs that they name. -/
inductive Names (Port : List Char → Prop) : List Char → List Char → Prop where
  | host {host : List Char} (h : ':' ∉ host) :
      Names Port host ("tcp://".toList ++ host ++ ":5005".toList)
  | hostPort {host port : List Char} (hne : host ≠ []) (hlast : ':' ∉ port) (hport : Port port) :
      Names Port (host ++ ':' :: port) ("tcp://".toList ++ host ++ ':' :: port)

/-- A row of digits whose value a port can have. -/
def IsPortNumber (port : List Char) : Prop := ∃ n, Text.IsNumeral port n ∧ n ≤ maxPort

/-- A port number, maybe with a plus sign before it. -/
def IsSignedPortNumber (port : List Char) : Prop :=
  ∃ digits, (port = digits ∨ port = '+' :: digits) ∧ IsPortNumber digits

/-- A text is read if the grammar has it, as what it names there; else the fault is about the text as it was
given. -/
structure FollowsGrammar (Port : List Char → Prop) (given : String) : Prop where
  reads : ∀ a, parse given = .ok a ↔ ∃ cs, Text.Trims cs given.toList ∧ cs ≠ [] ∧
    (∀ c ∈ cs, Text.isBlank c = false) ∧ Names Port cs a.uri.toList
  refuses : ∀ f, parse given = .error f →
    f.Concerns given ∧ f.message = "Invalid server address '" ++ given ++ "'"

/-! ### What is read -/

theorem hasScheme_iff {cs : List Char} : hasScheme cs = true ↔ "://".toList <:+: cs := by
  show hasScheme cs = true ↔ [':', '/', '/'] <:+: cs
  induction cs with
  | nil => simp [hasScheme]
  | cons c cs ih =>
    have hhere : (['/', '/'].isPrefixOf cs && c == ':') = true ↔ [':', '/', '/'] <+: c :: cs := by
      rw [List.cons_prefix_cons, Bool.and_eq_true, List.isPrefixOf_iff_prefix, beq_iff_eq, and_comm,
        eq_comm (a := c)]
    rw [hasScheme, Bool.or_eq_true, hhere, List.infix_cons_iff]
    exact or_congr Iff.rfl ih

theorem isPort_iff {port : List Char} : isPort port = true ↔ IsSignedPortNumber port := by
  have hread : isPort port = true ↔ ∃ n, Text.parseDecimal maxPort port = .ok n := by
    rw [isPort]
    split
    next n hn => simp [hn]
    next f hf => simp [hf]
  rw [hread]
  simp only [Text.parseDecimal_eq_ok_iff]
  constructor
  · rintro ⟨n, digits, hshape, hn⟩
    exact ⟨digits, hshape, n, hn⟩
  · rintro ⟨digits, hshape, n, hn⟩
    exact ⟨n, digits, hshape, hn⟩

/-- A text without a colon is a host. -/
theorem names_of_none {Port : List Char → Prop} {cs uri : List Char}
    (h : Text.splitLast ':' cs = none) :
    Names Port cs uri ↔ uri = "tcp://".toList ++ cs ++ ":5005".toList := by
  have hcolon := Text.splitLast_eq_none_iff.1 h
  constructor
  · rintro (- | ⟨-, -, -⟩)
    · rfl
    · exact absurd hcolon (by simp)
  · rintro rfl
    exact .host hcolon

/-- A text with a colon is a host and a port. -/
theorem names_of_some {Port : List Char → Prop} {cs uri host port : List Char}
    (h : Text.splitLast ':' cs = some (host, port)) :
    Names Port cs uri ↔ host ≠ [] ∧ Port port ∧ uri = "tcp://".toList ++ cs := by
  obtain ⟨rfl, hlast⟩ := Text.splitLast_eq_some_iff.1 h
  constructor
  · intro hnames
    generalize hcs : host ++ ':' :: port = cs at hnames
    cases hnames with
    | host hcolon => exact absurd hcolon (by simp [← hcs])
    | @hostPort host' port' hne hlast' hport =>
      -- the last colon is at one place only
      have hsplit : Text.splitLast ':' (host ++ ':' :: port) = some (host', port') :=
        Text.splitLast_eq_some_iff.2 ⟨hcs, hlast'⟩
      rw [h] at hsplit
      obtain ⟨rfl, rfl⟩ := Prod.mk.inj (Option.some.inj hsplit)
      exact ⟨hne, hport, by simp⟩
  · rintro ⟨hne, hport, rfl⟩
    simpa using Names.hostPort hne hlast hport

section

variable {given : String} {cs : List Char}

/-- What a text without a scheme comes to, told by what trimming leaves of it. -/
theorem parse_of_trims (h : ¬ "://".toList <:+: given.toList) (htrims : Text.Trims cs given.toList) :
    parse given =
      if cs.isEmpty || cs.any Text.isBlank then .error (.blank given)
      else match Text.splitLast ':' cs with
        | none => .ok (tcp (cs ++ ':' :: (toString defaultPort).toList))
        | some (host, port) =>
          if host.isEmpty || !isPort port then .error (.malformed given (String.ofList cs)) else .ok (tcp cs) := by
  have hscheme : ¬ hasScheme cs = true := by
    intro hcs
    obtain ⟨left, right, hframe, -⟩ := htrims.framed
    exact h ((hasScheme_iff.1 hcs).trans ⟨left, right, hframe.symm⟩)
  rw [htrims.eq_trimChars] at hscheme ⊢
  simp only [parse, hscheme]
  rfl

theorem tcp_eq_iff {a : Address} {cs : List Char} :
    tcp cs = a ↔ a.uri.toList = "tcp://".toList ++ cs := by
  have huri : (tcp cs).uri.toList = "tcp://".toList ++ cs :=
    String.toList_append.trans (congrArg _ String.toList_ofList)
  constructor
  · rintro rfl
    exact huri
  · intro h
    cases a
    exact congrArg Address.mk (String.toList_inj.1 (huri.trans h.symm))

theorem parse_eq_ok_iff {a : Address} (h : ¬ "://".toList <:+: given.toList)
    (htrims : Text.Trims cs given.toList) :
    parse given = .ok a ↔
      cs ≠ [] ∧ (∀ c ∈ cs, Text.isBlank c = false) ∧ Names IsSignedPortNumber cs a.uri.toList := by
  rw [parse_of_trims h htrims]
  by_cases hblank : (cs.isEmpty || cs.any Text.isBlank) = true
  · have hnot : ¬ (cs ≠ [] ∧ ∀ c ∈ cs, Text.isBlank c = false) := by
      rintro ⟨hne, hsound⟩
      simp only [Bool.or_eq_true, List.isEmpty_iff, hne, List.any_eq_true, false_or] at hblank
      obtain ⟨c, hc, hb⟩ := hblank
      exact absurd hb (by simp [hsound c hc])
    rw [if_pos hblank, ← and_assoc]
    simp [hnot]
  · have hsound : cs ≠ [] ∧ ∀ c ∈ cs, Text.isBlank c = false := by
      simpa using hblank
    rw [if_neg hblank, ← and_assoc, and_iff_right hsound]
    cases hsplit : Text.splitLast ':' cs with
    | none =>
      rw [names_of_none hsplit]
      simp only [Except.ok.injEq, tcp_eq_iff, List.append_assoc]
      rfl
    | some p =>
      obtain ⟨host, port⟩ := p
      rw [names_of_some hsplit, ← isPort_iff, ← tcp_eq_iff]
      by_cases hrefused : (host.isEmpty || !isPort port) = true
      · simp only [if_pos hrefused, reduceCtorEq, false_iff]
        rintro ⟨hne, hport, -⟩
        simp [hne, hport] at hrefused
      · have hread : host ≠ [] ∧ isPort port = true := by simpa using hrefused
        simp only [if_neg hrefused, Except.ok.injEq]
        rw [and_iff_right hread.1, and_iff_right hread.2]

theorem concerns_of_parse {f : AddressFault} (h : parse given = .error f) :
    f.Concerns given := by
  simp only [parse] at h
  split at h
  · obtain rfl := Except.error.inj h
    exact .blank
  · split at h
    · exact absurd h (by simp)
    · split at h
      · exact absurd h (by simp)
      · split at h
        · obtain rfl := Except.error.inj h
          exact .malformed _
        · exact absurd h (by simp)

/-- **Texts without a scheme follow the grammar in which a port may have a plus sign.** -/
theorem parse_followsGrammar (h : ¬ "://".toList <:+: given.toList) :
    FollowsGrammar IsSignedPortNumber given where
  reads a := by
    constructor
    · intro hread
      have htrims := Text.trims_trimChars given.toList
      exact ⟨_, htrims, (parse_eq_ok_iff h htrims).1 hread⟩
    · rintro ⟨cs, htrims, hread⟩
      exact (parse_eq_ok_iff h htrims).2 hread
  refuses f hf := ⟨concerns_of_parse hf, (concerns_of_parse hf).message_eq⟩

end

/-- Several colons, a sign and zeros before the port, and blanks around it all. -/
theorem parse_followsGrammar_manyColons :
    ¬ "://".toList <:+: "\u00a0::1:+00080 ".toList ∧
      parse "\u00a0::1:+00080 " = .ok ⟨"tcp://::1:+00080"⟩ := by
  have hnone : ¬ "://".toList <:+: "\u00a0::1:+00080 ".toList := by decide
  have htrims : Text.Trims "::1:+00080".toList "\u00a0::1:+00080 ".toList := Text.trims_iff.2 rfl
  have hdigits : Text.IsNumeral "00080".toList 80 := ⟨by decide, List.all_eq_true.1 rfl, by decide⟩
  have hport : IsSignedPortNumber "+00080".toList :=
    ⟨"00080".toList, .inr rfl, 80, hdigits, by decide⟩
  have hhost : "::1".toList ≠ [] := by decide
  have hnames : Names IsSignedPortNumber "::1:+00080".toList "tcp://::1:+00080".toList :=
    .hostPort hhost (by decide) hport
  have hsound : ∀ c ∈ "::1:+00080".toList, Text.isBlank c = false := by simp; decide
  exact ⟨hnone, ((parse_followsGrammar hnone).reads _).2 ⟨_, htrims, by decide, hsound, hnames⟩⟩

/-- **A port with a plus sign is read, and goes into the URI as it is**, though it is no row of digits. -/
theorem plus_sign_kept :
    ¬ "://".toList <:+: "a:+80".toList ∧ parse "a:+80" = .ok ⟨"tcp://a:+80"⟩ ∧
      ¬ FollowsGrammar IsPortNumber "a:+80" := by
  have hread : parse "a:+80" = .ok ⟨"tcp://a:+80"⟩ := by decide
  refine ⟨by decide, hread, fun hfollows => ?_⟩
  obtain ⟨cs, htrims, -, -, hnames⟩ := (hfollows.reads _).1 hread
  have hcs : cs = "a:+80".toList := htrims.eq_trimChars.trans rfl
  have hsplit : Text.splitLast ':' "a:+80".toList = some ("a".toList, "+80".toList) := rfl
  rw [hcs, names_of_some hsplit] at hnames
  obtain ⟨-, ⟨n, hn, -⟩, -⟩ := hnames
  exact absurd (hn.isDigit '+' (by decide)) (by decide)

end Address

end LogRelay
