import SearchLoad.Proofs.Text.Entries
import SearchLoad.Settings

namespace SearchLoad

open Text

namespace ClientSettings

/-- An address as settings have it: some text without commas, with no blank at its ends. -/
structure IsAddress (address : String) : Prop where
  nonempty : address ≠ ""
  free : ',' ∉ address.toList
  first : ∀ c ∈ address.toList.head?, isBlank c = false
  last : ∀ c ∈ address.toList.getLast?, isBlank c = false

/-- Pieces that spell addresses: each is blank, or it is the next address with blanks around it. -/
inductive Spell : List (List Char) → List String → Prop
  | nil : Spell [] []
  | blank {piece : List Char} {pieces : List (List Char)} {addresses : List String} :
      isAllBlank piece = true → Spell pieces addresses → Spell (piece :: pieces) addresses
  | address {lead trail : List Char} {pieces : List (List Char)} {address : String}
      {addresses : List String} :
      IsAddress address → isAllBlank lead = true → isAllBlank trail = true →
      Spell pieces addresses →
      Spell ((lead ++ (address.toList ++ trail)) :: pieces) (address :: addresses)

/-- A text lists addresses if it is made of pieces that spell them, with commas between them. -/
def Lists (value : String) (addresses : List String) : Prop :=
  ∃ pieces, Spell pieces addresses ∧ value.toList = [','].intercalate pieces

namespace IsAddress

variable {address : String}

theorem trim_between (h : IsAddress address) {lead trail : List Char}
    (before : isAllBlank lead = true) (behind : isAllBlank trail = true) :
    trim (lead ++ (address.toList ++ trail)) = address.toList := by
  rw [trim_append_left (isAllBlank_iff.mp before), trim_append_right (isAllBlank_iff.mp behind),
    trim_eq_self h.first h.last]

theorem of_entry {entry : List Char} (free : ',' ∉ entry) (solid : isAllBlank entry = false) :
    IsAddress (String.ofList (trim entry)) where
  nonempty none := by
    have left : (trim entry).isEmpty = false := by rw [isEmpty_trim, solid]
    rw [← String.toList_inj, String.toList_ofList] at none
    simp [none] at left
  free := by
    rw [String.toList_ofList]
    exact fun member => free (mem_of_mem_trim member)
  first := by
    rw [String.toList_ofList]
    exact fun c => isBlank_of_mem_head?_trim
  last := by
    rw [String.toList_ofList]
    exact fun c => isBlank_of_mem_getLast?_trim

end IsAddress

namespace Spell

variable {pieces : List (List Char)} {addresses : List String}

theorem free (h : Spell pieces addresses) : ∀ piece ∈ pieces, ',' ∉ piece := by
  induction h with
  | nil => simp
  | blank blank _ ih => exact List.forall_mem_cons.mpr ⟨not_mem_of_isAllBlank blank, ih⟩
  | address address before behind _ ih =>
    refine List.forall_mem_cons.mpr ⟨?_, ih⟩
    simp [not_mem_of_isAllBlank before, not_mem_of_isAllBlank behind, address.free]

theorem isAddress (h : Spell pieces addresses) : ∀ address ∈ addresses, IsAddress address := by
  induction h with
  | nil => simp
  | blank _ _ ih => exact ih
  | address address _ _ _ ih => exact List.forall_mem_cons.mpr ⟨address, ih⟩

end Spell

/-- The addresses in pieces are what is left of those that are not blank. -/
theorem spell_iff {pieces : List (List Char)} {addresses : List String}
    (free : ∀ piece ∈ pieces, ',' ∉ piece) : Spell pieces addresses ↔
      (pieces.filter fun piece => !isAllBlank piece).map (fun piece => String.ofList (trim piece)) =
        addresses := by
  constructor
  · intro h
    clear free
    induction h with
    | nil => rfl
    | blank blank _ ih => rwa [List.filter_cons_of_neg (by simp [blank])]
    | @address lead trail pieces address addresses isAddress before behind _ ih =>
      have left := isAddress.trim_between before behind
      have solid : isAllBlank (lead ++ (address.toList ++ trail)) = false := by
        rw [← isEmpty_trim, left]
        simpa using isAddress.nonempty
      rw [List.filter_cons_of_pos (by simp [solid]), List.map_cons, ih, left,
        String.ofList_toList]
  · rintro rfl
    induction pieces with
    | nil => exact .nil
    | cons piece pieces ih =>
      obtain ⟨apart, rest⟩ := List.forall_mem_cons.mp free
      cases solid : isAllBlank piece with
      | true =>
        rw [List.filter_cons_of_neg (by simp [solid])]
        exact .blank solid (ih rest)
      | false =>
        obtain ⟨lead, trail, before, behind, whole⟩ := exists_blanks_trim piece
        rw [List.filter_cons_of_pos (by simp [solid]), List.map_cons]
        have spelled := Spell.address (IsAddress.of_entry apart solid) before behind (ih rest)
        rwa [String.toList_ofList, whole] at spelled

theorem splitAddresses_eq (value : String) : splitAddresses value =
    (entries value.toList).map fun entry => String.ofList (trim entry) := by
  rw [splitAddresses, entries, List.filter_map, List.map_map]
  simp only [Function.comp_def, isEmpty_trim]

/-- A text lists the addresses that it is split into, and no others. -/
theorem lists_iff {value : String} {addresses : List String} :
    Lists value addresses ↔ splitAddresses value = addresses := by
  rw [splitAddresses_eq]
  constructor
  · rintro ⟨pieces, spelled, whole⟩
    rw [whole, entries_intercalate spelled.free]
    exact (spell_iff spelled.free).mp spelled
  · intro split
    refine ⟨value.toList.splitOn ',', ?_, (List.intercalate_splitOn ',').symm⟩
    exact (spell_iff fun piece member => (of_mem_splitOn member).1).mpr split

theorem Lists.isAddress {value : String} {addresses : List String} (h : Lists value addresses) :
    ∀ address ∈ addresses, IsAddress address := by
  obtain ⟨pieces, spelled, -⟩ := h
  exact spelled.isAddress

/-- The addresses that are used where some are given: a standard one where there are none. -/
def orStandard (standard : String) (given : List String) : List String :=
  if given = [] then [standard] else given

section OrStandard

variable {standard : String} {given : List String}

theorem orStandard_of_ne_nil (nonempty : given ≠ []) : orStandard standard given = given :=
  if_neg nonempty

theorem orStandard_ne_nil : orStandard standard given ≠ [] := by
  rw [orStandard]
  split
  · exact List.cons_ne_nil _ _
  · assumption

theorem forall_mem_orStandard {p : String → Prop} (own : p standard) (all : ∀ a ∈ given, p a) :
    ∀ a ∈ orStandard standard given, p a := by
  rw [orStandard]
  split
  · simpa using own
  · exact all

/-- Where at most one address is given, one is used. -/
theorem exists_orStandard_eq (standard : String) (few : given.length ≤ 1) :
    ∃ address, orStandard standard given = [address] := by
  match given, few with
  | [], _ => exact ⟨standard, rfl⟩
  | [address], _ => exact ⟨address, rfl⟩

end OrStandard

theorem addresses_ofLookup (lookup : Lookup) (addressesName passwordName standard : String) :
    (ofLookup lookup addressesName passwordName standard).addresses =
      orStandard standard (splitAddresses ((lookup addressesName).getD "")) := by
  have given : ((lookup addressesName).map splitAddresses).getD [] =
      splitAddresses ((lookup addressesName).getD "") := by
    cases lookup addressesName with
    | none => rfl
    | some value => rfl
  rw [ofLookup, given, orStandard]
  simp only [List.isEmpty_iff]

end ClientSettings

/-- The services that settings have addresses of. -/
inductive Service
  | primary
  | search

namespace Service

open ClientSettings

def addressesName : Service → String
  | primary => "REDIS_ADDRS"
  | search => "REDISEARCH_ADDRS"

def standard : Service → String
  | primary => "localhost:6379"
  | search => "localhost:16379"

def client : Service → Settings → ClientSettings
  | primary => Settings.primary
  | search => Settings.search

/-- What the variable of a service is set to. One that is not set is taken as empty. -/
def value (service : Service) (lookup : Lookup) : String :=
  (lookup service.addressesName).getD ""

theorem isAddress_standard (service : Service) : IsAddress service.standard := by
  have split : splitAddresses service.standard = [service.standard] := by
    cases service <;> decide +kernel
  exact (lists_iff.mpr split).isAddress _ (List.mem_singleton.mpr rfl)

theorem addresses_ofLookup (service : Service) (lookup : Lookup) :
    (service.client (.ofLookup lookup)).addresses =
      orStandard service.standard (splitAddresses (service.value lookup)) := by
  cases service with
  | primary => exact ClientSettings.addresses_ofLookup ..
  | search => exact ClientSettings.addresses_ofLookup ..

end Service

end SearchLoad
