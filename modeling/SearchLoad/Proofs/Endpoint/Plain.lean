import SearchLoad.Connection.Basic
import SearchLoad.Proofs.Endpoint.Division

namespace SearchLoad

open Number

namespace Endpoint

/-- The characters of plain hosts. -/
def isHostChar (c : Char) : Bool := c.isAlphanum || c = '-' || c = '.'

/-- Letters and digits, one or more. -/
def IsWord (s : String) : Prop := s ≠ "" ∧ ∀ c ∈ s.toList, c.isAlphanum = true

/-- Letters, digits, hyphens and points, one or more. -/
def IsHostName (s : String) : Prop := s ≠ "" ∧ ∀ c ∈ s.toList, isHostChar c = true

instance : DecidablePred IsWord := fun s =>
  decidable_of_iff (s ≠ "" ∧ s.toList.all Char.isAlphanum = true) (by rw [List.all_eq_true, IsWord])

instance : DecidablePred IsHostName := fun s =>
  decidable_of_iff (s ≠ "" ∧ s.toList.all isHostChar = true) (by rw [List.all_eq_true, IsHostName])

theorem ne_of_apart {p : Char → Bool} {c d : Char} (inside : p c = true) (outside : p d = false) :
    c ≠ d := by
  rintro rfl
  exact absurd inside (by simp [outside])

theorem isHostChar_of_isAlphanum {c : Char} (h : c.isAlphanum = true) : isHostChar c = true := by
  simp [isHostChar, h]

theorem isHostChar_bounds {c : Char} (h : isHostChar c = true) :
    45 ≤ c.toNat ∧ c.toNat ≤ 122 := by
  simp only [isHostChar, Char.isAlphanum, Bool.or_eq_true, decide_eq_true_eq] at h
  rcases h with ((letter | digit) | rfl) | rfl
  · rcases (Bool.or_eq_true _ _).mp letter with upper | lower
    · have range : 'A' ≤ c ∧ c ≤ 'Z' := of_decide_eq_true upper
      exact ⟨Nat.le_trans (by decide) range.1, Nat.le_trans range.2 (by decide)⟩
    · obtain ⟨first, last⟩ := (Bool.and_eq_true _ _).mp lower
      have range : 'a' ≤ c ∧ c ≤ 'z' := ⟨of_decide_eq_true first, of_decide_eq_true last⟩
      exact ⟨Nat.le_trans (by decide) range.1, Nat.le_trans range.2 (by decide)⟩
  · have range := isDigit_iff.mp digit
    omega
  · decide
  · decide

theorem isHostChar_visible {c : Char} (h : isHostChar c = true) :
    (' ' ≤ c && c ≤ '~') = true := by
  have bounds := isHostChar_bounds h
  simp only [Char.le_def, UInt32.le_iff_toNat_le, Bool.and_eq_true, decide_eq_true_eq,
    Char.toNat_val]
  exact ⟨Nat.le_trans (by decide) bounds.1, Nat.le_trans bounds.2 (by decide)⟩

theorem not_isForbidden {c : Char} (h : isHostChar c = true) : Locator.isForbidden c = false := by
  rw [Bool.eq_false_iff]
  intro forbidden
  rw [Locator.isForbidden, List.contains_iff_mem] at forbidden
  have apart := List.all_eq_true (p := fun d => !isHostChar d).mp (by decide) c forbidden
  rw [h] at apart
  contradiction

/-- The characters of plain addresses. -/
def isAddressChar (c : Char) : Bool := isHostChar c || c = ':' || c = '@'

theorem isAddressChar_of_isHostChar {c : Char} (h : isHostChar c = true) :
    isAddressChar c = true := by
  simp [isAddressChar, h]

theorem not_isControlOrSpace {c : Char} (h : isAddressChar c = true) :
    Locator.isControlOrSpace c = false := by
  simp only [isAddressChar, Bool.or_eq_true, decide_eq_true_eq] at h
  rcases h with (host | rfl) | rfl
  · have bounds := isHostChar_bounds host
    have code : ' '.val.toNat = 32 := rfl
    simp only [Locator.isControlOrSpace, Char.le_def, UInt32.le_iff_toNat_le, Char.toNat_val, code,
      decide_eq_false_iff_not]
    omega
  · decide
  · decide

theorem not_endsAuthority {c : Char} (h : isAddressChar c = true) :
    Locator.endsAuthority c = false := by
  rw [Bool.eq_false_iff]
  intro ends
  simp only [Locator.endsAuthority, Bool.or_eq_true, decide_eq_true_eq] at ends
  rcases ends with (rfl | rfl) | rfl <;> contradiction

section Words

variable {s : String}

theorem IsWord.isHostChar (h : IsWord s) : ∀ c ∈ s.toList, isHostChar c = true :=
  fun c member => isHostChar_of_isAlphanum (h.2 c member)

theorem IsWord.not_mem (h : IsWord s) {c : Char} (other : c.isAlphanum = false) : c ∉ s.toList :=
  fun member => ne_of_apart (h.2 c member) other rfl

theorem IsWord.readSecret_eq (h : IsWord s) (fault : Fault) :
    readSecret fault s.toList = .ok (some s) := by
  have full : s.toList ≠ [] := by simpa using h.1
  rw [readSecret_of_not_mem full (h.not_mem (by decide)), String.ofList_toList]

theorem IsHostName.plain (h : IsHostName s) :
    ∀ c ∈ s.toList, c ≠ ':' ∧ c ≠ '[' ∧ c ≠ ']' := by
  intro c member
  have host := h.2 c member
  exact ⟨ne_of_apart host (by decide), ne_of_apart host (by decide), ne_of_apart host (by decide)⟩

/-- A plain host is kept as written. -/
theorem IsHostName.readHost?_eq (h : IsHostName s) : Locator.readHost? s.toList = some s := by
  have clear : s.toList.any Locator.isForbidden = false :=
    List.any_eq_false.mpr fun c member => by simp [not_isForbidden (h.2 c member)]
  have visible : Percent.encodeControls s.toList = s.toList :=
    Percent.encodeControls_eq_self fun c member => isHostChar_visible (h.2 c member)
  unfold Locator.readHost?
  split
  · rename_i inner bracket
    have first := h.plain '[' (bracket ▸ List.mem_cons_self)
    exact absurd rfl first.2.1
  · rw [clear, visible, String.ofList_toList]
    rfl

end Words

/-- A user and a secret. -/
structure Credentials where
  user : String
  secret : String
  user_isWord : IsWord user
  secret_isWord : IsWord secret

namespace Credentials

def text (c : Credentials) : String := c.user ++ ":" ++ c.secret

theorem toList_text (c : Credentials) :
    c.text.toList = c.user.toList ++ ':' :: c.secret.toList := by
  simp [text]

theorem isAddressChar (c : Credentials) : ∀ d ∈ c.text.toList, isAddressChar d = true := by
  intro d member
  rw [toList_text, List.mem_append, List.mem_cons] at member
  rcases member with user | rfl | secret
  · exact isAddressChar_of_isHostChar (c.user_isWord.isHostChar d user)
  · decide
  · exact isAddressChar_of_isHostChar (c.secret_isWord.isHostChar d secret)

theorem splitUser_eq (c : Credentials) :
    Locator.splitUser c.text.toList = (c.user.toList, c.secret.toList) := by
  rw [toList_text, Locator.splitUser_append (c.user_isWord.not_mem (by decide))]

end Credentials

/-- A host and a port, whose text may be no number, and perhaps who connects to it. -/
structure PlainAddress where
  credentials : Option Credentials
  host : String
  port : String
  host_isHostName : IsHostName host
  port_isWord : IsWord port

namespace PlainAddress

def place (a : PlainAddress) : String := a.host ++ ":" ++ a.port

def text (a : PlainAddress) : String :=
  match a.credentials with
  | none => a.place
  | some c => c.text ++ "@" ++ a.place

def user? (a : PlainAddress) : Option String := a.credentials.map Credentials.user

def secret? (a : PlainAddress) : Option String := a.credentials.map Credentials.secret

variable (a : PlainAddress)

theorem toList_place : a.place.toList = a.host.toList ++ ':' :: a.port.toList := by
  simp [place]

theorem isAddressChar_place : ∀ c ∈ a.place.toList, isAddressChar c = true := by
  intro c member
  rw [toList_place, List.mem_append, List.mem_cons] at member
  rcases member with host | rfl | port
  · exact isAddressChar_of_isHostChar (a.host_isHostName.2 c host)
  · decide
  · exact isAddressChar_of_isHostChar (a.port_isWord.isHostChar c port)

theorem at_not_mem_place : '@' ∉ a.place.toList := by
  intro member
  rw [toList_place, List.mem_append, List.mem_cons] at member
  rcases member with host | colon | port
  · exact ne_of_apart (a.host_isHostName.2 '@' host) (by decide) rfl
  · contradiction
  · exact a.port_isWord.not_mem (by decide) port

theorem isAddressChar_text : ∀ c ∈ a.text.toList, isAddressChar c = true := by
  unfold text
  cases a.credentials with
  | none => exact a.isAddressChar_place
  | some credentials =>
    intro c member
    simp only [String.toList_append, List.mem_append] at member
    rcases member with (before | mark) | place
    · exact credentials.isAddressChar c before
    · obtain rfl : c = '@' := by simpa using mark
      decide
    · exact a.isAddressChar_place c place

theorem readPlace (named : Bool) : Locator.readHostAndPort? named a.place.toList =
    (Locator.readPort? a.port.toList).map fun (number, tail) => (a.host, number, tail) := by
  have full : a.host.toList ≠ [] := by simpa using a.host_isHostName.1
  rw [toList_place, Locator.readHostAndPort?_append full a.host_isHostName.plain
    a.host_isHostName.readHost?_eq]

/-- The user and the secret stand before the last at sign, and nothing stands before it where there
is none. -/
theorem splitLastAt_text : (Locator.splitLastAt a.text.toList).getD ([], a.text.toList) =
    ((a.credentials.map fun c => c.text.toList).getD [], a.place.toList) := by
  unfold text
  cases a.credentials with
  | none =>
    rw [Locator.splitLastAt_of_not_mem a.at_not_mem_place]
    rfl
  | some c =>
    have chars : (c.text ++ "@" ++ a.place).toList = c.text.toList ++ '@' :: a.place.toList := by
      simp
    rw [chars, Locator.splitLastAt_append a.at_not_mem_place]
    rfl

theorem splitUser_credentials :
    Locator.splitUser ((a.credentials.map fun c => c.text.toList).getD []) =
      ((a.user?.map String.toList).getD [], (a.secret?.map String.toList).getD []) := by
  unfold user? secret?
  cases a.credentials with
  | none => rfl
  | some c => exact c.splitUser_eq

theorem readSecret_user? :
    readSecret .badUsername ((a.user?.map String.toList).getD []) = .ok a.user? := by
  unfold user?
  cases a.credentials with
  | none => rfl
  | some c => exact c.user_isWord.readSecret_eq _

theorem readSecret_secret? :
    readSecret .badPassword ((a.secret?.map String.toList).getD []) = .ok a.secret? := by
  unfold secret?
  cases a.credentials with
  | none => rfl
  | some c => exact c.secret_isWord.readSecret_eq _

theorem read?_text : Locator.read? a.text.toList =
    (Locator.readPort? a.port.toList).map fun (port, tail) =>
      ⟨(a.user?.map String.toList).getD [], (a.secret?.map String.toList).getD [], a.host, port,
        Locator.readPath tail, []⟩ := by
  have solid : ∀ c ∈ a.text.toList, Locator.isControlOrSpace c = false :=
    fun c member => not_isControlOrSpace (a.isAddressChar_text c member)
  have whole : ∀ c ∈ a.text.toList, Locator.endsAuthority c = false :=
    fun c member => not_endsAuthority (a.isAddressChar_text c member)
  rw [Locator.read?_of_authority solid whole a.splitLastAt_text a.splitUser_credentials,
    a.readPlace, Option.map_map]
  rfl

/-- An address whose port is a number of 16 bits is read as what it is made of. -/
theorem parse_text {port : Nat} (decimal : IsDecimal port a.port.toList) (fits : port ≤ 65535) :
    parse a.text = .ok ⟨a.host, port, 0, a.user?, a.secret?, .two⟩ := by
  have number := Locator.readPort?_of_isDecimal decimal (a.port_isWord.not_mem (by decide))
  have host : a.host.isEmpty = false := by simpa using a.host_isHostName.1
  rw [parse, a.read?_text, number, if_neg (Nat.not_lt.mpr fits)]
  simp only [Option.map_some, ofLocator, host, a.readSecret_user?, a.readSecret_secret?]
  rfl

theorem parse_unreadable (other : ∀ port ≤ 65535, ¬ IsDecimal port a.port.toList) :
    parse a.text = .error .unreadable := by
  have refused : Locator.readPort? a.port.toList = none := by
    -- Digits alone are a number, then one too large; anything else ends the digits too early.
    by_cases digits : ∀ c ∈ a.port.toList, isDigit c = true
    · have full : a.port.toList ≠ [] := by simpa using a.port_isWord.1
      have decimal : IsDecimal _ a.port.toList := ⟨_, full, digits, rfl, .inl rfl⟩
      rw [Locator.readPort?_of_isDecimal decimal (a.port_isWord.not_mem (by decide))]
      exact if_pos (Nat.lt_of_not_le fun fits => other _ fits decimal)
    · obtain ⟨c, member, letter⟩ := not_forall₂.mp digits
      exact Locator.readPort?_eq_none (a.port_isWord.not_mem (by decide)) member
        (Bool.eq_false_iff.mpr letter)
  rw [parse, a.read?_text, refused]
  rfl

end PlainAddress

end Endpoint

namespace Connection

open Endpoint

/-- A plain address whose port is a number of 16 bits is an endpoint of its host and its port, with
the configured password, or where there is none with its own secret; any other one is blamed
unchanged. -/
theorem plain_addresses_are_read (a : PlainAddress) (configured : String) :
    (∀ port ≤ 65535, IsDecimal port a.port.toList →
      endpointOf a.text configured = .ok {
        host := a.host
        port := port
        database := 0
        username := a.credentials.map Credentials.user
        password :=
          if configured = "" then a.credentials.map Credentials.secret else some configured
        protocol := .two }) ∧
    ((∀ port ≤ 65535, ¬ IsDecimal port a.port.toList) →
      endpointOf a.text configured = .error (.invalidEndpoint a.text .unreadable)) := by
  constructor
  · intro port fits decimal
    rw [endpointOf, a.parse_text decimal fits]
    by_cases empty : configured = ""
    · subst empty
      rfl
    · simp only [Endpoint.withPassword, String.isEmpty_iff, if_neg empty]
      rfl
  · intro other
    rw [endpointOf, a.parse_unreadable other]

/-- One reader at one host, and any port. -/
def readerAt (port : String) (word : IsWord port) : PlainAddress where
  credentials := some ⟨"reader", "s3cret", by decide, by decide⟩
  host := "Search-1.eu"
  port := port
  host_isHostName := by decide
  port_isWord := word

/-- A secret counts where no password is configured, and one number too many is no port. -/
theorem secret_gives_way_to_password :
    IsDecimal 65535 "65535".toList ∧
    endpointOf "reader:s3cret@Search-1.eu:65535" "" =
      .ok ⟨"Search-1.eu", 65535, 0, some "reader", some "s3cret", .two⟩ ∧
    endpointOf "reader:s3cret@Search-1.eu:65535" "other" =
      .ok ⟨"Search-1.eu", 65535, 0, some "reader", some "other", .two⟩ ∧
    (∀ port ≤ 65535, ¬ IsDecimal port "65536".toList) ∧
    endpointOf "reader:s3cret@Search-1.eu:65536" "other" =
      .error (.invalidEndpoint "reader:s3cret@Search-1.eu:65536" .unreadable) := by
  have last : IsDecimal 65535 "65535".toList := isDecimal_toString 65535
  have beyond : ∀ port ≤ 65535, ¬ IsDecimal port "65536".toList := by
    rintro port fits ⟨ds, -, -, value, rfl | sign⟩
    · have number : Nat.ofDigitChars 10 "65536".toList 0 = 65536 := by decide
      omega
    · exact absurd (List.cons.inj sign).1 (by decide)
  have given := plain_addresses_are_read (readerAt "65535" (by decide))
  refine ⟨last, ?_, ?_, beyond, ?_⟩
  · exact (given "").1 65535 (Nat.le_refl _) last
  · exact (given "other").1 65535 (Nat.le_refl _) last
  · exact (plain_addresses_are_read (readerAt "65536" (by decide)) "other").2 beyond

end Connection

end SearchLoad
