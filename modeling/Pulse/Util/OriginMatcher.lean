import Pulse.Js.Text

/-!
# Origin matching

The normal form of an origin and the match of an `Origin` header against a
list of allowed origins. URL parsing and lower-casing are the platform's; of
the former only the form of its parts is used. Texts are lists of characters.
-/

namespace Pulse

/-- A text as the list of its characters. -/
abbrev Text := List Char

/-- The parts of a parsed URL which matter here. -/
structure URL where
  protocol : Text
  hostname : Text
  port : Text
  deriving DecidableEq, Repr

/-- `new URL` and `toLowerCase`. -/
structure Platform where
  parse : Text → Option URL
  toLowerCase : Text → Text

/-- The form of a URL's parts: a scheme and a colon; a domain, an address or a bracketed address
of version 6, which has no dot; decimal digits. -/
structure URL.Documented (url : URL) : Prop where
  protocol : ∃ scheme, url.protocol = scheme ++ [':'] ∧ ':' ∉ scheme
  hostname : ':' ∉ url.hostname ∨ '.' ∉ url.hostname ∧ url.hostname.getLast? = some ']'
  port : ∀ c ∈ url.port, c.isDigit = true

/-- What is documented of the platform. -/
structure Platform.Documented (p : Platform) : Prop where
  parse : ∀ text url, p.parse text = some url → url.Documented
  parse_empty : p.parse [] = none
  toLowerCase_empty : p.toLowerCase [] = []

/-- The first occurrence of a separator: what precedes it, and what follows. -/
def breakOn (separator : Text) : Text → Option (Text × Text)
  | [] => if separator = [] then some ([], []) else none
  | c :: l =>
      if separator <+: c :: l then some ([], (c :: l).drop separator.length)
      else (breakOn separator l).map fun parts => (c :: parts.1, parts.2)

/-- `://*.` -/
def wildcardMark : Text := [':', '/', '/', '*', '.']

/-- The length of a text in code units. -/
def units (l : Text) : Nat := (l.flatMap Js.codeUnits).length

namespace OriginMatcher

variable (p : Platform)

/-- The text which `normalizeOrigin` parses. -/
def trimmed (origin : Text) : Text :=
  (p.toLowerCase (Js.trimChars origin)).rdropWhile (· = '/')

def normalizeOrigin (origin : Text) : Text :=
  match p.parse (trimmed p origin) with
  | some url =>
      if (url.protocol = "http:".toList ∧ url.port = "80".toList) ∨
          (url.protocol = "https:".toList ∧ url.port = "443".toList) ∨ url.port = [] then
        url.protocol ++ ['/', '/'] ++ url.hostname
      else url.protocol ++ ['/', '/'] ++ url.hostname ++ [':'] ++ url.port
  | none => trimmed p origin

/-- The comparison with an allowed origin that has a wildcard. -/
def matchesWildcard (normalizedHeader normalizedAllowed : Text) : Bool :=
  match breakOn wildcardMark normalizedAllowed with
  | none => false
  | some (protocol, rest) =>
      let domainPattern :=
        match breakOn wildcardMark rest with
        | some (pattern, _) => pattern
        | none => rest
      let start := protocol ++ [':', '/', '/']
      if start <+: normalizedHeader then
        let hostPart := (normalizedHeader.drop start.length).takeWhile (· ≠ ':')
        decide ('.' :: domainPattern <:+ hostPart) &&
          decide (units hostPart > units domainPattern + 1)
      else false

def isAllowed (originHeader : Option Text) (allowedOrigins : Option (List Text)) : Bool :=
  match allowedOrigins with
  | none => true
  | some allowedOrigins =>
      if ['*'] ∈ allowedOrigins then true
      else
        match originHeader with
        | none => true
        | some originHeader =>
            if originHeader = [] ∨ Js.trimChars originHeader = [] then true
            else if allowedOrigins.length = 0 then false
            else
              let normalizedHeader := normalizeOrigin p originHeader
              allowedOrigins.any fun allowed =>
                decide (allowed = ['*']) ||
                  let normalizedAllowed := normalizeOrigin p allowed
                  decide (normalizedHeader = normalizedAllowed) ||
                    matchesWildcard normalizedHeader normalizedAllowed

end OriginMatcher

/-- A URL without the default port of its scheme. -/
def URL.origin (url : URL) : URL :=
  if (url.protocol = "http:".toList ∧ url.port = "80".toList) ∨
      (url.protocol = "https:".toList ∧ url.port = "443".toList) then
    { url with port := [] }
  else url

/-- The port as an origin's text has it. -/
def URL.portSuffix (url : URL) : Text := if url.port = [] then [] else ':' :: url.port

def URL.text (url : URL) : Text :=
  url.protocol ++ '/' :: '/' :: (url.hostname ++ url.portSuffix)

/-- The origin which a text denotes, in lower case and without a default port. -/
def Platform.originOf (p : Platform) (text : Text) : Option URL :=
  (p.parse (OriginMatcher.trimmed p text)).map URL.origin

/-- A host below a domain. -/
def ProperSubdomain (host domain : Text) : Prop :=
  ∃ label, label ≠ [] ∧ host = label ++ '.' :: domain

/-- The wildcard origin `entry` stands for hosts of which `header`'s is one. -/
def URL.Covers (entry header : URL) : Prop :=
  ∃ domain, entry.hostname = '*' :: '.' :: domain ∧ header.protocol = entry.protocol ∧
    ProperSubdomain header.hostname domain

/-- The header's origin is the entry's, or a wildcard entry has its scheme and port and a domain
above its host. -/
def URL.Matches (entry header : URL) : Prop :=
  (∀ domain, entry.hostname ≠ '*' :: '.' :: domain) ∧ header = entry ∨
    entry.Covers header ∧ entry.port = header.port

/-- Some allowed origin has the property. -/
def Platform.Lists (p : Platform) (allowedOrigins : List Text) (P : URL → Prop) : Prop :=
  ∃ text ∈ allowedOrigins, ∃ entry, p.originOf text = some entry ∧ P entry

section text

theorem Platform.Documented.originOf {p : Platform} (documented : p.Documented) {text : Text}
    {origin : URL} (h : p.originOf text = some origin) : origin.Documented := by
  obtain ⟨url, hparse, rfl⟩ := Option.map_eq_some_iff.mp h
  have parts := documented.parse _ _ hparse
  rw [URL.origin]
  split_ifs
  · exact ⟨parts.protocol, parts.hostname, fun c hc => absurd hc List.not_mem_nil⟩
  · exact parts

/-- The normal form of an origin's text. -/
theorem normalizeOrigin_eq {p : Platform} {text : Text} {origin : URL}
    (h : p.originOf text = some origin) : OriginMatcher.normalizeOrigin p text = origin.text := by
  obtain ⟨url, hparse, rfl⟩ := Option.map_eq_some_iff.mp h
  simp only [OriginMatcher.normalizeOrigin, hparse]
  by_cases default : (url.protocol = "http:".toList ∧ url.port = "80".toList) ∨
      (url.protocol = "https:".toList ∧ url.port = "443".toList)
  · rw [if_pos (by tauto), URL.origin, if_pos default]
    simp [URL.text, URL.portSuffix]
  · rw [URL.origin, if_neg default, URL.text, URL.portSuffix]
    by_cases empty : url.port = []
    · rw [if_pos (by tauto), if_pos empty]
      simp
    · rw [if_neg (by tauto), if_neg empty]
      simp

variable {α : Type*}

/-- Lists divided at the first of a kind of element have one division. -/
theorem append_cons_inj_of_not_mem {a : α} {l l' r r' : List α} (h : a ∉ l) (h' : a ∉ l')
    (same : l ++ a :: r = l' ++ a :: r') : l = l' ∧ r = r' := by
  induction l generalizing l' with
  | nil =>
      cases l' with
      | nil => exact ⟨rfl, (List.cons.inj same).2⟩
      | cons b l' =>
          obtain ⟨rfl, -⟩ := List.cons.inj same
          exact absurd List.mem_cons_self h'
  | cons b l ih =>
      cases l' with
      | nil =>
          obtain ⟨rfl, -⟩ := List.cons.inj same
          exact absurd List.mem_cons_self h
      | cons b' l' =>
          obtain ⟨rfl, hrest⟩ := List.cons.inj same
          obtain ⟨rfl, rfl⟩ := ih (fun hm => h (.tail _ hm)) (fun hm => h' (.tail _ hm)) hrest
          exact ⟨rfl, rfl⟩

/-- Lists divided at the last of a kind of element have one division. -/
theorem append_cons_inj_of_not_mem_right {a : α} {l l' r r' : List α} (h : a ∉ r) (h' : a ∉ r')
    (same : l ++ a :: r = l' ++ a :: r') : l = l' ∧ r = r' := by
  have reversed := congrArg List.reverse same
  simp only [List.reverse_append, List.reverse_cons, List.append_assoc, List.singleton_append]
    at reversed
  obtain ⟨hr, hl⟩ := append_cons_inj_of_not_mem (by simpa using h) (by simpa using h') reversed
  exact ⟨List.reverse_injective hl, List.reverse_injective hr⟩

theorem URL.Documented.colon_not_mem_port {url : URL} (h : url.Documented) : ':' ∉ url.port := by
  intro hmem
  have digit := h.port ':' hmem
  revert digit
  decide

/-- A host with a port is no host. -/
theorem URL.Documented.hostname_ne_append_port {url other : URL} (h : url.Documented)
    (h' : other.Documented) (port : other.port ≠ []) (l : Text) :
    url.hostname ≠ l ++ ':' :: other.port := by
  intro same
  obtain noColon | ⟨-, bracket⟩ := h.hostname
  · exact noColon (by rw [same]; simp)
  · obtain ⟨digits, c, hport⟩ : ∃ digits c, other.port = digits ++ [c] :=
      ⟨_, _, (List.dropLast_append_getLast port).symm⟩
    have last : l ++ ':' :: (digits ++ [c]) = (l ++ ':' :: digits) ++ [c] := by simp
    rw [same, hport, last, List.getLast?_concat] at bracket
    obtain rfl : c = ']' := Option.some.inj bracket
    have digit := h'.port ']' (by rw [hport]; simp)
    revert digit
    decide

/-- An origin's text determines its parts. -/
theorem URL.Documented.text_injective {url other : URL} (h : url.Documented)
    (h' : other.Documented) (same : url.text = other.text) : url = other := by
  obtain ⟨scheme, hscheme, noColon⟩ := h.protocol
  obtain ⟨scheme', hscheme', noColon'⟩ := h'.protocol
  rw [URL.text, URL.text, hscheme, hscheme', List.append_assoc, List.append_assoc] at same
  obtain ⟨hs, hrest⟩ := append_cons_inj_of_not_mem noColon noColon' same
  have hosts : url.hostname ++ url.portSuffix = other.hostname ++ other.portSuffix := by
    simpa using hrest
  have protocols : url.protocol = other.protocol := by rw [hscheme, hscheme', hs]
  have parts : url.hostname = other.hostname ∧ url.port = other.port := by
    rw [URL.portSuffix, URL.portSuffix] at hosts
    by_cases hport : url.port = [] <;> by_cases hport' : other.port = []
    · rw [if_pos hport, if_pos hport', List.append_nil, List.append_nil] at hosts
      exact ⟨hosts, hport.trans hport'.symm⟩
    · rw [if_pos hport, if_neg hport', List.append_nil] at hosts
      exact absurd hosts (h.hostname_ne_append_port h' hport' _)
    · rw [if_neg hport, if_pos hport', List.append_nil] at hosts
      exact absurd hosts.symm (h'.hostname_ne_append_port h hport _)
    · rw [if_neg hport, if_neg hport'] at hosts
      exact append_cons_inj_of_not_mem_right h.colon_not_mem_port h'.colon_not_mem_port hosts
  cases url
  cases other
  simp_all

end text

section wildcard

theorem breakOn_prefix (separator r : Text) (h : separator ≠ []) :
    breakOn separator (separator ++ r) = some ([], r) := by
  cases separator with
  | nil => exact absurd rfl h
  | cons c separator =>
      rw [List.cons_append, breakOn, if_pos ⟨r, rfl⟩]
      simp

theorem breakOn_append {c : Char} {separator s r : Text} (first : separator.head? = some c)
    (h : c ∉ s) :
    breakOn separator (s ++ r) =
      (breakOn separator r).map fun parts => (s ++ parts.1, parts.2) := by
  induction s with
  | nil => simp
  | cons d s ih =>
      have other : ¬ separator <+: d :: (s ++ r) := by
        rintro ⟨l, hl⟩
        have same := congrArg List.head? hl
        rw [List.head?_append, first] at same
        obtain rfl : c = d := by simpa using same
        exact h List.mem_cons_self
      rw [List.cons_append, breakOn, if_neg other, ih fun hm => h (.tail _ hm), Option.map_map]
      rfl

theorem breakOn_eq_none {c : Char} {separator l : Text} (there : c ∈ separator) (h : c ∉ l) :
    breakOn separator l = none := by
  induction l with
  | nil =>
      rw [breakOn, if_neg (List.ne_nil_of_mem there)]
  | cons d l ih =>
      have other : ¬ separator <+: d :: l := fun hbegins => h (List.IsPrefix.subset hbegins there)
      rw [breakOn, if_neg other, ih fun hm => h (.tail _ hm)]
      rfl

variable {url header entry : URL}

theorem URL.Documented.dot_not_mem_portSuffix (h : url.Documented) : '.' ∉ url.portSuffix := by
  rw [URL.portSuffix]
  split_ifs
  · exact List.not_mem_nil
  · intro hmem
    obtain hcolon | hport := List.mem_cons.mp hmem
    · revert hcolon
      decide
    · have digit := h.port '.' hport
      revert digit
      decide

/-- No wildcard begins in the port. -/
theorem URL.Documented.breakOn_portSuffix (h : url.Documented) :
    breakOn wildcardMark url.portSuffix = none :=
  breakOn_eq_none (c := '.') (by decide) h.dot_not_mem_portSuffix

/-- A wildcard origin's text is divided at its wildcard. -/
theorem breakOn_wildcard (h : entry.Documented) {scheme domain : Text}
    (hscheme : entry.protocol = scheme ++ [':']) (noColon : ':' ∉ scheme)
    (wildcard : entry.hostname = '*' :: '.' :: domain) :
    breakOn wildcardMark entry.text = some (scheme, domain ++ entry.portSuffix) ∧
      breakOn wildcardMark (domain ++ entry.portSuffix) = none := by
  have colon_not_mem : ':' ∉ domain := by
    obtain hcolon | ⟨hdot, -⟩ := h.hostname
    · rw [wildcard] at hcolon
      exact fun hm => hcolon (.tail _ (.tail _ hm))
    · rw [wildcard] at hdot
      exact absurd (.tail _ List.mem_cons_self) hdot
  have text : entry.text = scheme ++ (wildcardMark ++ (domain ++ entry.portSuffix)) := by
    rw [URL.text, hscheme, wildcard]
    simp [wildcardMark]
  constructor
  · rw [text, breakOn_append rfl noColon, breakOn_prefix _ _ (by decide)]
    simp
  · rw [breakOn_append rfl colon_not_mem, h.breakOn_portSuffix]
    rfl

/-- Another origin's text is not divided. -/
theorem breakOn_plain (h : entry.Documented)
    (plain : ∀ domain, entry.hostname ≠ '*' :: '.' :: domain) :
    breakOn wildcardMark entry.text = none := by
  obtain ⟨scheme, hscheme, noColon⟩ := h.protocol
  have text :
      entry.text = scheme ++ (':' :: '/' :: '/' :: (entry.hostname ++ entry.portSuffix)) := by
    rw [URL.text, hscheme]
    simp
  have later : breakOn wildcardMark ('/' :: '/' :: (entry.hostname ++ entry.portSuffix)) =
      none := by
    obtain hcolon | ⟨hdot, -⟩ := h.hostname
    · have : ':' ∉ '/' :: '/' :: entry.hostname := by simp [hcolon]
      rw [← List.cons_append, ← List.cons_append, breakOn_append rfl this, h.breakOn_portSuffix]
      rfl
    · refine breakOn_eq_none (c := '.') (by decide) ?_
      simp [hdot, h.dot_not_mem_portSuffix]
  have first : ¬ wildcardMark <+: ':' :: '/' :: '/' :: (entry.hostname ++ entry.portSuffix) := by
    rintro ⟨r, hr⟩
    have hosts : entry.hostname ++ entry.portSuffix = '*' :: '.' :: r := by
      simpa [wildcardMark] using hr.symm
    cases hhost : entry.hostname with
    | nil =>
        rw [hhost, List.nil_append] at hosts
        exact h.dot_not_mem_portSuffix (by rw [hosts]; simp)
    | cons a rest =>
        rw [hhost, List.cons_append] at hosts
        obtain ⟨rfl, hrest⟩ := List.cons.inj hosts
        cases rest with
        | nil =>
            exact h.dot_not_mem_portSuffix
              (by rw [← List.nil_append entry.portSuffix, hrest]; simp)
        | cons b domain =>
            obtain ⟨rfl, -⟩ := List.cons.inj hrest
            exact plain domain hhost
  rw [text, breakOn_append rfl noColon, breakOn, if_neg first, later]
  rfl

/-- A text begins with the scheme of an origin exactly when it is its scheme. -/
theorem scheme_prefix_iff (h : header.Documented) {scheme : Text}
    (hscheme : entry.protocol = scheme ++ [':']) (noColon : ':' ∉ scheme) :
    scheme ++ [':', '/', '/'] <+: header.text ↔ header.protocol = entry.protocol := by
  obtain ⟨scheme', hscheme', noColon'⟩ := h.protocol
  rw [URL.text, hscheme, hscheme']
  constructor
  · rintro ⟨r, hr⟩
    have same : scheme ++ ':' :: ('/' :: '/' :: r) =
        scheme' ++ ':' :: ('/' :: '/' :: (header.hostname ++ header.portSuffix)) := by
      simpa using hr
    rw [(append_cons_inj_of_not_mem noColon noColon' same).1]
  · intro same
    have : scheme = scheme' := (List.append_cancel_right same).symm
    subst this
    exact ⟨header.hostname ++ header.portSuffix, by simp⟩

/-- What precedes the first colon of a host and its port. -/
theorem takeWhile_host (h : header.Documented) :
    (':' ∉ header.hostname → (header.hostname ++ header.portSuffix).takeWhile (· ≠ ':') =
        header.hostname) ∧
      (':' ∈ header.hostname →
        '.' ∉ (header.hostname ++ header.portSuffix).takeWhile (· ≠ ':')) := by
  constructor
  · intro noColon
    have all : ∀ c ∈ header.hostname, decide (c ≠ ':') = true :=
      fun c hc => decide_eq_true fun heq => noColon (heq ▸ hc)
    rw [List.takeWhile_append_of_pos all, URL.portSuffix]
    split_ifs <;> simp
  · intro colon hdot
    obtain noColon | ⟨noDot, -⟩ := h.hostname
    · exact noColon colon
    · obtain hhost | hport := List.mem_append.mp ((List.takeWhile_prefix _).subset hdot)
      · exact noDot hhost
      · exact h.dot_not_mem_portSuffix hport

theorem units_append (l r : Text) : units (l ++ r) = units l + units r := by
  simp [units]

theorem units_pos {l : Text} (h : l ≠ []) : 0 < units l := by
  cases l with
  | nil => exact absurd rfl h
  | cons c l =>
      simp only [units, List.flatMap_cons, List.length_append, Js.codeUnits]
      split_ifs <;> exact Nat.add_pos_left (Nat.succ_pos _) _

/-- The comparison of ends and lengths finds the hosts below a domain. -/
theorem properSubdomain_iff {host domain : Text} :
    '.' :: domain <:+ host ∧ units host > units domain + 1 ↔ ProperSubdomain host domain := by
  have dot : units ['.'] = 1 := by decide
  have size : ∀ label, units (label ++ '.' :: domain) = units label + (1 + units domain) := by
    intro label
    have parts : label ++ '.' :: domain = label ++ (['.'] ++ domain) := rfl
    rw [parts, units_append, units_append, dot]
  constructor
  · rintro ⟨⟨label, rfl⟩, longer⟩
    refine ⟨label, ?_, rfl⟩
    rintro rfl
    rw [size] at longer
    simp only [units, List.flatMap_nil, List.length_nil] at longer
    omega
  · rintro ⟨label, nonempty, rfl⟩
    have := units_pos nonempty
    rw [size]
    exact ⟨⟨label, rfl⟩, by omega⟩

/-- The part before the first colon lies below a pattern exactly when the host lies below its
domain and the pattern has no port. -/
theorem hostPart_iff (h : header.Documented) {domain : Text} :
    '.' :: (domain ++ entry.portSuffix) <:+
          (header.hostname ++ header.portSuffix).takeWhile (· ≠ ':') ∧
        units ((header.hostname ++ header.portSuffix).takeWhile (· ≠ ':')) >
          units (domain ++ entry.portSuffix) + 1 ↔
      ProperSubdomain header.hostname domain ∧ entry.port = [] := by
  obtain ⟨whole, noDot⟩ := takeWhile_host h
  have noColon : ':' ∉ (header.hostname ++ header.portSuffix).takeWhile (· ≠ ':') := by
    intro hm
    have := List.mem_takeWhile_imp hm
    simp at this
  rw [properSubdomain_iff]
  by_cases port : entry.port = []
  · have suffix : entry.portSuffix = [] := if_pos port
    rw [suffix, List.append_nil]
    by_cases colon : ':' ∈ header.hostname
    · constructor
      · rintro ⟨label, -, hlabel⟩
        exact absurd (by rw [hlabel]; simp) (noDot colon)
      · rintro ⟨⟨label, -, hlabel⟩, -⟩
        obtain hcolon | ⟨hdot, -⟩ := h.hostname
        · exact absurd colon hcolon
        · exact absurd (by rw [hlabel]; simp) hdot
    · rw [whole colon]
      exact ⟨fun below => ⟨below, port⟩, fun both => both.1⟩
  · have suffix : entry.portSuffix = ':' :: entry.port := if_neg port
    rw [suffix]
    constructor
    · rintro ⟨label, -, hlabel⟩
      exact absurd (by rw [hlabel]; simp) noColon
    · exact fun both => absurd both.2 port

/-- The wildcard branch compares schemes and hosts, and accepts no entry with a port. -/
theorem matchesWildcard_iff (h : header.Documented) (h' : entry.Documented) :
    OriginMatcher.matchesWildcard header.text entry.text = true ↔
      entry.Covers header ∧ entry.port = [] := by
  by_cases plain : ∀ domain, entry.hostname ≠ '*' :: '.' :: domain
  · rw [OriginMatcher.matchesWildcard, breakOn_plain h' plain]
    constructor
    · exact nofun
    · rintro ⟨⟨domain, wildcard, -⟩, -⟩
      exact absurd wildcard (plain domain)
  · obtain ⟨domain, wildcard⟩ : ∃ domain, entry.hostname = '*' :: '.' :: domain := by
      simpa using plain
    obtain ⟨scheme, hscheme, noColon⟩ := h'.protocol
    obtain ⟨divided, once⟩ := breakOn_wildcard h' hscheme noColon wildcard
    have covers : entry.Covers header ↔
        header.protocol = entry.protocol ∧ ProperSubdomain header.hostname domain := by
      constructor
      · rintro ⟨domain', hwildcard, protocol, host⟩
        rw [wildcard] at hwildcard
        cases hwildcard
        exact ⟨protocol, host⟩
      · rintro ⟨protocol, host⟩
        exact ⟨domain, wildcard, protocol, host⟩
    simp only [OriginMatcher.matchesWildcard, divided, once]
    rw [covers]
    by_cases protocol : header.protocol = entry.protocol
    · have text : header.text =
          (scheme ++ [':', '/', '/']) ++ (header.hostname ++ header.portSuffix) := by
        rw [URL.text, protocol, hscheme]
        simp
      rw [if_pos ((scheme_prefix_iff h hscheme noColon).mpr protocol), text, List.drop_left,
        Bool.and_eq_true, decide_eq_true_eq, decide_eq_true_eq, hostPart_iff h]
      tauto
    · rw [if_neg (mt (scheme_prefix_iff h hscheme noColon).mp protocol)]
      exact ⟨nofun, fun both => absurd both.1.1 protocol⟩

/-- An origin with a wildcard in its place of a host is below its own domain. -/
theorem matches_self (entry : URL) : entry.Matches entry := by
  by_cases plain : ∀ domain, entry.hostname ≠ '*' :: '.' :: domain
  · exact .inl ⟨plain, rfl⟩
  · obtain ⟨domain, wildcard⟩ : ∃ domain, entry.hostname = '*' :: '.' :: domain := by
      simpa using plain
    exact .inr ⟨⟨domain, wildcard, rfl, ['*'], by decide, wildcard⟩, rfl⟩

end wildcard

section allowed

variable {p : Platform} {originHeader : Text} {header : URL} {allowedOrigins : List Text}

theorem lists_or {P Q : URL → Prop} :
    (p.Lists allowedOrigins fun entry => P entry ∨ Q entry) ↔
      p.Lists allowedOrigins P ∨ p.Lists allowedOrigins Q := by
  simp only [Platform.Lists, and_or_left, exists_or]

theorem Platform.Lists.imp {P Q : URL → Prop} (h : p.Lists allowedOrigins P)
    (imp : ∀ entry, P entry → Q entry) : p.Lists allowedOrigins Q := by
  obtain ⟨text, hmem, entry, hentry, hP⟩ := h
  exact ⟨text, hmem, entry, hentry, imp entry hP⟩

/-- What the loop over the allowed origins decides. -/
theorem isAllowed_iff (documented : p.Documented)
    (hheader : p.originOf originHeader = some header) (noStar : ['*'] ∉ allowedOrigins)
    (origins : ∀ text ∈ allowedOrigins, (p.originOf text).isSome = true) :
    OriginMatcher.isAllowed p (some originHeader) (some allowedOrigins) = true ↔
      p.Lists allowedOrigins fun entry =>
        header = entry ∨ entry.Covers header ∧ entry.port = [] := by
  have present : ¬ (originHeader = [] ∨ Js.trimChars originHeader = []) := by
    intro absent
    have blank : Js.trimChars originHeader = [] := by
      obtain rfl | blank := absent
      · rfl
      · exact blank
    rw [Platform.originOf, OriginMatcher.trimmed, blank, documented.toLowerCase_empty,
      List.rdropWhile_nil, documented.parse_empty] at hheader
    cases hheader
  simp only [OriginMatcher.isAllowed, if_neg noStar, if_neg present]
  by_cases empty : allowedOrigins.length = 0
  · have none : allowedOrigins = [] := List.eq_nil_of_length_eq_zero empty
    subst none
    simp [Platform.Lists]
  · rw [if_neg empty, List.any_eq_true]
    refine exists_congr fun text => and_congr_right fun hmem => ?_
    obtain ⟨entry, hentry⟩ := Option.isSome_iff_exists.mp (origins text hmem)
    have star : text ≠ ['*'] := fun heq => noStar (heq ▸ hmem)
    have equal : OriginMatcher.normalizeOrigin p originHeader =
        OriginMatcher.normalizeOrigin p text ↔ header = entry := by
      rw [normalizeOrigin_eq hheader, normalizeOrigin_eq hentry]
      exact ⟨(documented.originOf hheader).text_injective (documented.originOf hentry),
        congrArg URL.text⟩
    have wildcard := matchesWildcard_iff (documented.originOf hheader) (documented.originOf hentry)
    rw [← normalizeOrigin_eq hheader, ← normalizeOrigin_eq hentry] at wildcard
    simp only [Bool.or_eq_true, decide_eq_true_eq, star, false_or, equal, wildcard, hentry,
      Option.some.injEq, exists_eq_left']

/-- Origin matching: the decision is the one on the parsed parts exactly when the header has no
port, or is an allowed origin itself, or the wildcard entries which cover it include one with
its port just if they include one without a port. -/
theorem isAllowed_exact_iff (p : Platform) (documented : p.Documented) (originHeader : Text)
    (header : URL) (allowedOrigins : List Text) (hheader : p.originOf originHeader = some header)
    (noStar : ['*'] ∉ allowedOrigins)
    (origins : ∀ text ∈ allowedOrigins, (p.originOf text).isSome = true) :
    (OriginMatcher.isAllowed p (some originHeader) (some allowedOrigins) = true ↔
        p.Lists allowedOrigins fun entry => entry.Matches header) ↔
      header.port = [] ∨ p.Lists allowedOrigins (fun entry => entry = header) ∨
        ((p.Lists allowedOrigins fun entry => entry.Covers header ∧ entry.port = header.port) ↔
          p.Lists allowedOrigins fun entry => entry.Covers header ∧ entry.port = []) := by
  rw [isAllowed_iff documented hheader noStar origins]
  by_cases listed : p.Lists allowedOrigins fun entry => entry = header
  · have accepted : p.Lists allowedOrigins fun entry =>
        header = entry ∨ entry.Covers header ∧ entry.port = [] :=
      listed.imp fun entry same => .inl same.symm
    have due : p.Lists allowedOrigins fun entry => entry.Matches header :=
      listed.imp fun entry same => same ▸ matches_self entry
    exact iff_of_true (iff_of_true accepted due) (.inr (.inl listed))
  · have not_self : ¬ p.Lists allowedOrigins fun entry => header = entry :=
      fun h => listed (h.imp fun entry same => same.symm)
    have not_plain : ¬ p.Lists allowedOrigins fun entry =>
        (∀ domain, entry.hostname ≠ '*' :: '.' :: domain) ∧ header = entry :=
      fun h => listed (h.imp fun entry both => both.2.symm)
    have due : (p.Lists allowedOrigins fun entry => entry.Matches header) ↔
        p.Lists allowedOrigins fun entry => entry.Covers header ∧ entry.port = header.port := by
      simp only [URL.Matches, lists_or, not_plain, false_or]
    rw [due, lists_or]
    simp only [not_self, listed, false_or]
    constructor
    · exact fun agree => .inr agree.symm
    · rintro (noPort | agree)
      · rw [noPort]
      · exact agree.symm

/-- A parser which reads origins in their usual form. -/
def parseOrigin (text : Text) : Option URL :=
  match breakOn [':', '/', '/'] text with
  | none => none
  | some (scheme, rest) =>
      let url : URL :=
        { protocol := scheme ++ [':'], hostname := rest.takeWhile (· ≠ ':'),
          port := (rest.dropWhile (· ≠ ':')).drop 1 }
      if ':' ∉ scheme ∧ url.port.all Char.isDigit then some url else none

def plainPlatform : Platform := { parse := parseOrigin, toLowerCase := List.map Char.toLower }

theorem plainPlatform_documented : plainPlatform.Documented where
  parse := by
    intro text url h
    simp only [plainPlatform, parseOrigin] at h
    split at h
    · cases h
    · rename_i scheme rest _
      obtain ⟨⟨noColon, digits⟩, hurl⟩ := Option.ite_none_right_eq_some.mp h
      cases hurl
      refine ⟨⟨scheme, rfl, noColon⟩, .inl ?_, List.all_eq_true.mp digits⟩
      intro hm
      have := List.mem_takeWhile_imp hm
      simp at this
  parse_empty := rfl
  toLowerCase_empty := rfl

theorem isAllowed_exact_iff_wildcard :
    (OriginMatcher.isAllowed plainPlatform (some "https://Gateway.pulse.internal/".toList)
          (some ["https://*.pulse.internal".toList]) = true ↔
        plainPlatform.Lists ["https://*.pulse.internal".toList] fun entry =>
          entry.Matches ⟨"https:".toList, "gateway.pulse.internal".toList, []⟩) ↔
      [] = ([] : Text) ∨
        plainPlatform.Lists ["https://*.pulse.internal".toList] (fun entry =>
          entry = ⟨"https:".toList, "gateway.pulse.internal".toList, []⟩) ∨
        ((plainPlatform.Lists ["https://*.pulse.internal".toList] fun entry =>
            entry.Covers ⟨"https:".toList, "gateway.pulse.internal".toList, []⟩ ∧
              entry.port = []) ↔
          plainPlatform.Lists ["https://*.pulse.internal".toList] fun entry =>
            entry.Covers ⟨"https:".toList, "gateway.pulse.internal".toList, []⟩ ∧
              entry.port = []) :=
  isAllowed_exact_iff plainPlatform plainPlatform_documented
    "https://Gateway.pulse.internal/".toList ⟨_, _, _⟩ ["https://*.pulse.internal".toList]
    (by decide +kernel) (by decide) (List.forall_mem_singleton.mpr (by decide +kernel))

/-- An allowed wildcard origin with a port locks its hosts out. -/
theorem wildcard_port_locked_out :
    OriginMatcher.isAllowed plainPlatform (some "https://gateway.pulse.internal:8443".toList)
        (some ["https://*.pulse.internal:8443".toList]) = false ∧
      plainPlatform.originOf "https://gateway.pulse.internal:8443".toList =
        some ⟨"https:".toList, "gateway.pulse.internal".toList, "8443".toList⟩ ∧
      plainPlatform.Lists ["https://*.pulse.internal:8443".toList] fun entry =>
        entry.Matches ⟨"https:".toList, "gateway.pulse.internal".toList, "8443".toList⟩ := by
  refine ⟨by decide +kernel, by decide +kernel, _, List.mem_singleton_self _,
    ⟨"https:".toList, "*.pulse.internal".toList, "8443".toList⟩, by decide +kernel, .inr ⟨?_, rfl⟩⟩
  exact ⟨"pulse.internal".toList, by decide, rfl, "gateway".toList, by decide, by decide⟩

end allowed

end Pulse
