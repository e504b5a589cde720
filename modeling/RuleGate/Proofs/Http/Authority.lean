import RuleGate.Exchange.Derived
import RuleGate.Proofs.Text.Split

/-!
# Hosts in authorities

How an authority is written: a host, which is a name, an IPv4 address or an IPv6 address in brackets, with a port
behind it and user information in front of it, or without them. Rules cut the port off at a colon without looking
for user information, and take the brackets off only together with a port.
-/

namespace RuleGate

/-- Characters of a host besides its brackets; colons only between these. -/
def isHostChar (bracketed : Bool) (c : Char) : Bool := c != '@' && c != '[' && c != ']' && (c != ':' || bracketed)

/-- A name or an IPv4 address, or what an IPv6 address has between its brackets. -/
structure Host where
  text : String
  bracketed : Bool
  legal : text.toList.all (isHostChar bracketed) = true

/-- A host and what stands around it in an authority. -/
structure Authority where
  user : Option String
  host : Host
  port : Option String
  port_digits : (port.getD "").toList.all Char.isDigit = true

/-- The host as it stands in an authority. -/
def Host.written (h : Host) : String := if h.bracketed then "[" ++ h.text ++ "]" else h.text

namespace Authority

def text (a : Authority) : String :=
  a.user.elim "" (· ++ "@") ++ a.host.written ++ a.port.elim "" (":" ++ ·)

/-- The host alone. -/
def bare (a : Authority) : Authority := ⟨none, a.host, none, rfl⟩

/-- The user information and the port go unnoticed. There is no user information, and a port only behind a name;
or the name of the host is repeated in the user information, where the host is looked for. -/
def GoesUnnoticed (a : Authority) : Prop :=
  (a.user = none ∧ (a.host.bracketed = true → a.port = none)) ∨
    (a.host.bracketed = false ∧ ∃ password,
      (a.user = some (a.host.text ++ ":" ++ password) ∧ ':' ∉ password.toList ∧ a.port = none) ∨
        a.user = some ("[" ++ a.host.text ++ "]:" ++ password))

end Authority

/-- The request names an authority: in its target, or else in the `Host` header, which has no user information. -/
def Request.Names (r : Request) (a : Authority) : Prop :=
  r.uri.authority = some a.text ∨
    (r.uri.authority = none ∧ a.user = none ∧ r.headers.getVisible? .host = some a.text)

/-! ## Hosts and ports -/

/-- A text is read as a host and a port if it is a host in brackets that a colon follows, or if it starts with no
bracket and holds one colon. -/
theorem splitHostPort?_eq_some_iff {s host port : String} :
    splitHostPort? s = some (host, port) ↔
      (s = "[" ++ host ++ "]:" ++ port ∧ ']' ∉ host.toList) ∨
        (s.toList.head? ≠ some '[' ∧ s = host ++ ":" ++ port ∧ ':' ∉ host.toList ∧ ':' ∉ port.toList) := by
  unfold splitHostPort?
  constructor
  · intro h
    split at h
    · next rest hs =>
      obtain ⟨⟨front, tail⟩, hcut, h⟩ := Option.bind_eq_some_iff.mp h
      obtain ⟨port', hport, h⟩ := Option.bind_eq_some_iff.mp h
      cases h
      obtain ⟨rfl, hfront⟩ := Text.cut?_eq_some hcut
      refine .inl ⟨String.toList_inj.mp ?_, by rwa [String.toList_ofList]⟩
      rw [hs, Text.dropPrefix?_eq_some hport]
      simp
    · next hbracket =>
      obtain ⟨⟨front, back⟩, hcut, h⟩ := Option.bind_eq_some_iff.mp h
      dsimp only at h
      split at h
      · cases h
      · next hfront =>
        cases h
        obtain ⟨hs, hback⟩ := Text.cutLast?_eq_some hcut
        refine .inr ⟨?_, String.toList_inj.mp ?_, ?_, by rwa [String.toList_ofList]⟩
        · intro hhead
          obtain ⟨rest, hrest⟩ := List.head?_eq_some_iff.mp hhead
          exact hbracket rest hrest
        · rw [hs]
          simp
        · rw [String.toList_ofList]
          exact fun hmem ↦ hfront (List.contains_iff_mem.mpr hmem)
  · rintro (⟨rfl, hhost⟩ | ⟨hbracket, rfl, hhost, hport⟩)
    · have hs : ("[" ++ host ++ "]:" ++ port).toList = '[' :: (host.toList ++ ']' :: ':' :: port.toList) := by simp
      have hport : Text.dropPrefix? [':'] (':' :: port.toList) = some port.toList := Text.dropPrefix?_append [':'] _
      rw [hs]
      split
      · next rest heq =>
        obtain rfl := (List.cons.inj heq).2
        rw [Text.cut?_append hhost]
        simp [hport]
      · next hbracket => exact absurd rfl (hbracket _)
    · have hs : (host ++ ":" ++ port).toList = host.toList ++ ':' :: port.toList := by simp
      rw [hs] at hbracket ⊢
      split
      · next heq =>
        rw [heq] at hbracket
        exact absurd rfl hbracket
      · rw [Text.cutLast?_append hport]
        simpa using hhost

theorem Request.host_eq_iff {r : Request} {host : String} :
    r.host = host ↔ (∃ port, splitHostPort? r.hostWithPort = some (host, port)) ∨
      (splitHostPort? r.hostWithPort = none ∧ r.hostWithPort = host) := by
  unfold Request.host
  cases splitHostPort? r.hostWithPort with
  | none => simp
  | some parts =>
    obtain ⟨front, port⟩ := parts
    simp

theorem Request.hostWithPort_of_names {r : Request} {a : Authority} (h : r.Names a) : r.hostWithPort = a.text := by
  unfold Request.hostWithPort
  rcases h with hauthority | ⟨hnone, -, hheader⟩
  · rw [hauthority]
  · rw [hnone, hheader]
    rfl

/-! ## What is seen of a host -/

namespace Host

variable {h : Host}

theorem written_of_name (hname : h.bracketed = false) : h.written = h.text := by
  rw [written, hname]
  rfl

theorem written_of_literal (hliteral : h.bracketed = true) : h.written = "[" ++ h.text ++ "]" := by
  rw [written, hliteral]
  rfl

theorem not_mem_text {c : Char} (hc : isHostChar h.bracketed c = false) : c ∉ h.text.toList := by
  intro hmem
  rw [List.all_eq_true.mp h.legal c hmem] at hc
  cases hc

theorem at_not_mem (h : Host) : '@' ∉ h.text.toList := not_mem_text rfl

theorem opening_not_mem (h : Host) : '[' ∉ h.text.toList := not_mem_text rfl

theorem closing_not_mem (h : Host) : ']' ∉ h.text.toList := not_mem_text rfl

theorem colon_not_mem (hname : h.bracketed = false) : ':' ∉ h.text.toList := by
  apply not_mem_text
  rw [hname]
  rfl

end Host

namespace Authority

variable {a : Authority} {r : Request}

theorem not_mem_port {p : String} (hport : a.port = some p) {c : Char} (hc : c.isDigit = false) :
    c ∉ p.toList := by
  have hdigits := a.port_digits
  rw [hport, Option.getD_some] at hdigits
  intro hmem
  rw [List.all_eq_true.mp hdigits c hmem] at hc
  cases hc

/-- A host that stands alone is seen as it is written. -/
theorem host_of_bare (hr : r.Names a) (huser : a.user = none) (hport : a.port = none) :
    r.host = a.host.written := by
  have htext : a.text = a.host.written := by
    rw [text, huser, hport]
    simp
  refine Request.host_eq_iff.mpr (.inr ⟨Option.eq_none_iff_forall_ne_some.mpr ?_, ?_⟩)
  · intro ⟨host, port⟩ hsplit
    rw [Request.hostWithPort_of_names hr, htext, splitHostPort?_eq_some_iff] at hsplit
    cases hform : a.host.bracketed with
    | false =>
      have hcolon := Host.colon_not_mem hform
      rw [Host.written_of_name hform] at hsplit
      rcases hsplit with ⟨heq, -⟩ | ⟨-, heq, -⟩
      · rw [heq] at hcolon
        simp at hcolon
      · rw [heq] at hcolon
        simp at hcolon
    | true =>
      rw [Host.written_of_literal hform] at hsplit
      rcases hsplit with ⟨heq, hhost⟩ | ⟨hbracket, -⟩
      · have hlists := congrArg String.toList heq
        simp only [String.toList_append, List.append_assoc] at hlists
        have hinner : a.host.text.toList ++ [']'] = host.toList ++ ']' :: ':' :: port.toList :=
          List.append_cancel_left hlists
        obtain ⟨m, -, hclosing⟩ := Text.append_of_append_eq a.host.closing_not_mem hinner
        have hlength := congrArg List.length hclosing
        simp at hlength
        omega
      · simp at hbracket
  · rw [Request.hostWithPort_of_names hr, htext]

/-- Without user information a port goes unnoticed behind a name, but not behind an address in brackets. -/
theorem host_eq_iff_of_no_user (hr : r.Names a) (huser : a.user = none) :
    r.host = a.host.written ↔ (a.host.bracketed = true → a.port = none) := by
  cases hport : a.port with
  | none => exact iff_of_true (host_of_bare hr huser hport) fun _ ↦ rfl
  | some p =>
    have htext : a.text = a.host.written ++ ":" ++ p := by
      rw [text, huser, hport]
      simp [String.append_assoc]
    cases hform : a.host.bracketed with
    | false =>
      refine iff_of_true (Request.host_eq_iff.mpr (.inl ⟨p, splitHostPort?_eq_some_iff.mpr (.inr ?_)⟩)) nofun
      rw [Request.hostWithPort_of_names hr, htext, Host.written_of_name hform]
      refine ⟨?_, rfl, Host.colon_not_mem hform, not_mem_port hport (by decide)⟩
      intro hhead
      have hmem := List.mem_of_mem_head? hhead
      simp only [String.toList_append, List.mem_append] at hmem
      rcases hmem with (hmem | hmem) | hmem
      · exact a.host.opening_not_mem hmem
      · exact absurd hmem (by decide)
      · exact not_mem_port hport (by decide) hmem
    | true =>
      have hseen : r.host = a.host.text := by
        refine Request.host_eq_iff.mpr (.inl ⟨p, splitHostPort?_eq_some_iff.mpr (.inl ?_)⟩)
        refine ⟨?_, a.host.closing_not_mem⟩
        rw [Request.hostWithPort_of_names hr, htext, Host.written_of_literal hform]
        simp [String.append_assoc]
      rw [hseen, Host.written_of_literal hform]
      refine iff_of_false (fun heq ↦ ?_) (fun h ↦ nomatch h rfl)
      have hlength := congrArg (List.length ∘ String.toList) heq
      simp at hlength
      omega

/-- What starts an authority and holds no `@` starts its user information. -/
theorem front_of_user {front back user rest : String} (hfront : '@' ∉ front.toList)
    (heq : user ++ "@" ++ rest = front ++ back) :
    ∃ password, user = front ++ password ∧ back = password ++ "@" ++ rest := by
  have hlists : front.toList ++ back.toList = user.toList ++ '@' :: rest.toList := by
    simpa using (congrArg String.toList heq).symm
  obtain ⟨password, huser, hback⟩ := Text.append_of_append_eq hfront hlists
  refine ⟨String.ofList password, String.toList_inj.mp ?_, String.toList_inj.mp ?_⟩
  · rw [huser, String.toList_append, String.toList_ofList]
  · rw [hback]
    simp

theorem text_of_user {user : String} (huser : a.user = some user) :
    a.text = user ++ "@" ++ (a.host.written ++ a.port.elim "" (":" ++ ·)) := by
  rw [text, huser, String.append_assoc]
  rfl

/-- The host is found between brackets in front of a colon. -/
theorem user_of_brackets {user port : String} (huser : a.user = some user)
    (heq : a.text = "[" ++ a.host.written ++ "]:" ++ port) (hclosing : ']' ∉ a.host.written.toList) :
    a.host.bracketed = false ∧ ∃ password, user = "[" ++ a.host.text ++ "]:" ++ password := by
  cases hform : a.host.bracketed with
  | false =>
    have hfront : '@' ∉ ("[" ++ a.host.text ++ "]:").toList := by simpa using a.host.at_not_mem
    rw [text_of_user huser, Host.written_of_name hform] at heq
    obtain ⟨password, hpassword, -⟩ := front_of_user hfront heq
    exact ⟨rfl, password, hpassword⟩
  | true =>
    rw [Host.written_of_literal hform] at hclosing
    simp at hclosing

/-- The host is found in front of the only colon. -/
theorem user_of_colon {user port : String} (huser : a.user = some user)
    (heq : a.text = a.host.written ++ ":" ++ port) (hbracket : a.text.toList.head? ≠ some '[')
    (hcolon : ':' ∉ port.toList) :
    a.host.bracketed = false ∧
      ∃ password, user = a.host.text ++ ":" ++ password ∧ ':' ∉ password.toList ∧ a.port = none := by
  cases hform : a.host.bracketed with
  | false =>
    have hfront : '@' ∉ (a.host.text ++ ":").toList := by simpa using a.host.at_not_mem
    rw [text_of_user huser, Host.written_of_name hform] at heq
    obtain ⟨password, hpassword, rfl⟩ := front_of_user hfront heq
    simp only [String.toList_append, List.mem_append, not_or] at hcolon
    refine ⟨rfl, password, hpassword, hcolon.1.1, ?_⟩
    cases hnone : a.port with
    | none => rfl
    | some p =>
      rw [hnone] at hcolon
      simp at hcolon
  | true =>
    rw [heq, Host.written_of_literal hform] at hbracket
    simp at hbracket

/-- Behind user information a host is seen as it is written only where its name stands in front of a colon. -/
theorem host_eq_iff_of_user {user : String} (hr : r.Names a) (huser : a.user = some user) :
    r.host = a.host.written ↔
      a.host.bracketed = false ∧ ∃ password,
        (user = a.host.text ++ ":" ++ password ∧ ':' ∉ password.toList ∧ a.port = none) ∨
          user = "[" ++ a.host.text ++ "]:" ++ password := by
  have htext := text_of_user huser
  rw [Request.host_eq_iff, Request.hostWithPort_of_names hr]
  constructor
  · rintro (⟨port, hsplit⟩ | ⟨-, hwhole⟩)
    · rcases splitHostPort?_eq_some_iff.mp hsplit with ⟨heq, hclosing⟩ | ⟨hbracket, heq, -, hcolon⟩
      · obtain ⟨hform, password, hpassword⟩ := user_of_brackets huser heq hclosing
        exact ⟨hform, password, .inr hpassword⟩
      · obtain ⟨hform, password, hpassword⟩ := user_of_colon huser heq hbracket hcolon
        exact ⟨hform, password, .inl hpassword⟩
    · -- The user information makes the whole longer than the host.
      rw [htext] at hwhole
      have hlength := congrArg (List.length ∘ String.toList) hwhole
      simp at hlength
      omega
  · rintro ⟨hform, password, ⟨rfl, hpassword, hport⟩ | rfl⟩
    · refine .inl ⟨password ++ "@" ++ a.host.text, splitHostPort?_eq_some_iff.mpr (.inr ?_)⟩
      rw [htext, hport, Host.written_of_name hform]
      have hcolon := Host.colon_not_mem hform
      refine ⟨?_, by simp [String.append_assoc], hcolon, by simp [hpassword, hcolon]⟩
      have hopening := a.host.opening_not_mem
      cases hchars : a.host.text.toList with
      | nil => simp [hchars]
      | cons c rest =>
        rw [hchars, List.mem_cons, not_or] at hopening
        simpa [hchars] using Ne.symm hopening.1
    · rw [htext, Host.written_of_name hform]
      refine .inl ⟨password ++ "@" ++ (a.host.text ++ a.port.elim "" (":" ++ ·)),
        splitHostPort?_eq_some_iff.mpr (.inl ⟨?_, a.host.closing_not_mem⟩)⟩
      simp [String.append_assoc]

/-- A host is seen as it is written exactly if what stands around it goes unnoticed. -/
theorem host_eq_written_iff (hr : r.Names a) : r.host = a.host.written ↔ a.GoesUnnoticed := by
  cases huser : a.user with
  | none =>
    rw [host_eq_iff_of_no_user hr huser, GoesUnnoticed, huser]
    simp
  | some user =>
    rw [host_eq_iff_of_user hr huser, GoesUnnoticed, huser]
    simp

end Authority

end RuleGate
