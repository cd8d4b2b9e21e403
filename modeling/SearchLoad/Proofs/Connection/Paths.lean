import SearchLoad.Connection.Basic
import SearchLoad.Proofs.Fallible
import SearchLoad.Proofs.Settings.Addresses

namespace SearchLoad

/-- All results of a computation have a property: it gives what one does whose results come with a
proof of it. -/
def Yields {m : Type → Type} [Functor m] {α : Type} (p : α → Prop) (x : m α) : Prop :=
  ∃ y : m {a // p a}, Subtype.val <$> y = x

namespace Yields

variable {m : Type → Type} [Monad m] [LawfulMonad m] {α β : Type} {p : α → Prop} {q : β → Prop}

theorem pure {a : α} (h : p a) : Yields p (pure a : m α) :=
  ⟨Pure.pure ⟨a, h⟩, by rw [map_pure]⟩

theorem bind (x : m α) {f : α → m β} (h : ∀ a, Yields q (f a)) : Yields q (x >>= f) := by
  choose g val_g using h
  exact ⟨x >>= g, by rw [map_bind, funext val_g]⟩

theorem map {x : m α} {f : α → β} (h : Yields p x) (step : ∀ a, p a → q (f a)) :
    Yields q (f <$> x) := by
  obtain ⟨y, rfl⟩ := h
  refine ⟨(fun a => ⟨f a.1, step a.1 a.2⟩) <$> y, ?_⟩
  rw [Functor.map_map, Functor.map_map]

end Yields

namespace Connection

variable {m : Type → Type} [Monad m] [LawfulMonad m]

/-- A result that does not blame a lack of endpoints. -/
def HadEndpoints {α : Type} (r : Except ConnectionFault α) : Prop := r ≠ .error .noEndpoints

theorem hadEndpoints_failed {α : Type} (r : Except Wire.Failure α) :
    HadEndpoints (r.mapError ConnectionFault.failed) := by
  intro missing
  obtain ⟨f, -, other⟩ := mapError_eq_error_iff.mp missing
  contradiction

theorem HadEndpoints.map {α β : Type} {r : Except ConnectionFault α} (h : HadEndpoints r)
    (f : α → β) : HadEndpoints (r.map f) :=
  fun missing => h (map_eq_error_iff.mp missing)

theorem endpointOf_eq_error {address password : String} {f : ConnectionFault}
    (h : endpointOf address password = .error f) : ∃ g, f = .invalidEndpoint address g := by
  rw [endpointOf] at h
  split at h
  · contradiction
  · rename_i g _
    exact ⟨g, (Except.error.inj h).symm⟩

theorem connectServer_yields (net : Network m) (password address : String) :
    Yields HadEndpoints (connectServer net password address) := by
  rw [connectServer]
  split
  · rename_i f invalid
    obtain ⟨g, rfl⟩ := endpointOf_eq_error invalid
    exact .pure (by simp [HadEndpoints])
  · exact .bind _ fun _ => .bind _ fun link => .pure (hadEndpoints_failed link)

theorem connectNodes_yields (net : Network m) (password : String) {addresses : List String}
    (nonempty : addresses ≠ []) : Yields HadEndpoints (connectNodes net password addresses) := by
  rw [connectNodes]
  split
  · rename_i f invalid
    obtain ⟨-, address, -, -, -, invalid⟩ := mapM_eq_error_iff.mp invalid
    obtain ⟨g, rfl⟩ := endpointOf_eq_error invalid
    exact .pure (by simp [HadEndpoints])
  · rename_i nodes
    exact absurd (List.forall₂_nil_right_iff.mp (mapM_eq_ok_iff.mp nodes)) nonempty
  · exact .bind _ fun _ => .bind _ fun link => .pure (hadEndpoints_failed link)

theorem connect_single (net : Network m) {c : ClientSettings} {address : String}
    (one : c.addresses = [address]) :
    connect net c = Except.map single <$> connectServer net c.password address := by
  simp only [connect, one, bind_pure_comp]

theorem connect_cluster (net : Network m) {c : ClientSettings} (several : 1 < c.addresses.length) :
    connect net c = Except.map cluster <$> connectNodes net c.password c.addresses := by
  obtain ⟨addresses, password⟩ := c
  match addresses, several with
  | first :: second :: rest, _ => simp only [connect, bind_pure_comp]

theorem connect_yields (net : Network m) {c : ClientSettings} (nonempty : c.addresses ≠ []) :
    Yields HadEndpoints (connect net c) := by
  by_cases one : c.addresses.length = 1
  · obtain ⟨address, one⟩ := List.length_eq_one_iff.mp one
    rw [connect_single net one]
    exact (connectServer_yields net _ _).map fun r had => had.map _
  · have := List.length_pos_iff.mpr nonempty
    rw [connect_cluster net (by omega)]
    exact (connectNodes_yields net _ nonempty).map fun r had => had.map _

/-- A network where no server can be reached, and what is logged is kept. -/
def unreachable : Network (StateM (List Entry)) where
  dial _ := pure (.error (.system "Connection refused (os error 111)"))
  log entry := modify (· ++ [entry])

end Connection

namespace Service

open ClientSettings Connection

/-- A service has the addresses that its variable lists, or a standard one where it lists none. They
are well-formed, and a variable that lists them in any other way gives them again. So a connection
never lacks endpoints: it is one to a server where no more than one address was listed, and one to
a cluster otherwise. -/
theorem addresses_are_normal (service : Service) (lookup : Lookup) :
    ∃ given : List String,
      (∀ addresses, Lists (service.value lookup) addresses ↔ addresses = given) ∧
      let client := service.client (.ofLookup lookup)
      client.addresses = orStandard service.standard given ∧
      client.addresses ≠ [] ∧ (∀ address ∈ client.addresses, IsAddress address) ∧
      (∀ (again : Lookup) (value : String), again service.addressesName = some value →
        Lists value client.addresses →
        (service.client (.ofLookup again)).addresses = client.addresses) ∧
      ∀ {m : Type → Type} [Monad m] [LawfulMonad m] (net : Network m),
        Yields HadEndpoints (connect net client) ∧
        (given.length ≤ 1 → ∃ address, client.addresses = [address] ∧
          connect net client = Except.map single <$> connectServer net client.password address) ∧
        (1 < given.length →
          connect net client = Except.map cluster <$> connectNodes net client.password given) := by
  refine ⟨splitAddresses (service.value lookup), fun addresses => ?_, ?_⟩
  · rw [lists_iff, eq_comm]
  · intro client
    have addresses : client.addresses = _ := service.addresses_ofLookup lookup
    have listed := lists_iff.mpr (Eq.refl (splitAddresses (service.value lookup)))
    generalize splitAddresses (service.value lookup) = given at addresses listed ⊢
    have wellFormed : ∀ address ∈ client.addresses, IsAddress address := by
      rw [addresses]
      exact forall_mem_orStandard service.isAddress_standard listed.isAddress
    have nonempty : client.addresses ≠ [] := addresses ▸ orStandard_ne_nil
    refine ⟨addresses, nonempty, wellFormed, ?_, fun net => ⟨connect_yields net nonempty, ?_, ?_⟩⟩
    · intro again value set lists
      have split := lists_iff.mp lists
      rw [addresses_ofLookup, Service.value, set, Option.getD_some, split,
        orStandard_of_ne_nil nonempty]
    · intro few
      obtain ⟨address, one⟩ := exists_orStandard_eq service.standard few
      exact ⟨address, addresses.trans one, connect_single net (addresses.trans one)⟩
    · intro several
      have own : given ≠ [] := List.length_pos_iff.mp (Nat.zero_lt_of_lt several)
      have same := addresses.trans (orStandard_of_ne_nil own)
      rw [← same] at several ⊢
      exact connect_cluster net several

/-- The addresses of a service and nothing else. -/
def only (service : Service) (value : String) : Lookup :=
  fun name => if name = service.addressesName then some value else none

/-- Two addresses make a cluster, however they are spelled, and blanks and commas make a server. -/
theorem spellings_of_two_nodes_connect :
    let nodes := search.client (.ofLookup (only search "\u3000a:1 ,, b:2,"))
    let again := search.client (.ofLookup (only search ",a:1\t,\u00a0,b:2"))
    let alone := primary.client (.ofLookup (only primary " ,\u2003,"))
    (nodes.addresses = ["a:1", "b:2"] ∧ nodes.addresses ≠ [] ∧ IsAddress "b:2" ∧
      again.addresses = ["a:1", "b:2"] ∧ Yields HadEndpoints (connect unreachable nodes) ∧
      connect unreachable nodes =
        Except.map cluster <$> connectNodes unreachable "" ["a:1", "b:2"]) ∧
    alone.addresses = ["localhost:6379"] ∧ Yields HadEndpoints (connect unreachable alone) ∧
    connect unreachable alone =
      Except.map single <$> connectServer unreachable "" "localhost:6379" := by
  intro nodes again alone
  refine ⟨?_, ?_⟩
  · obtain ⟨given, listed, addresses, nonempty, wellFormed, others, connects⟩ :=
      addresses_are_normal search (only search "\u3000a:1 ,, b:2,")
    obtain rfl : ["a:1", "b:2"] = given := (listed _).mp (lists_iff.mpr (by decide +kernel))
    have same : nodes.addresses = ["a:1", "b:2"] := addresses
    obtain ⟨had, -, several⟩ := connects unreachable
    refine ⟨same, nonempty, wellFormed "b:2" (same ▸ by decide), ?_, had, several (by decide)⟩
    exact (others _ ",a:1\t,\u00a0,b:2" rfl (same ▸ lists_iff.mpr (by decide +kernel))).trans same
  · obtain ⟨given, listed, addresses, -, -, -, connects⟩ :=
      addresses_are_normal primary (only primary " ,\u2003,")
    obtain rfl : [] = given := (listed _).mp (lists_iff.mpr (by decide +kernel))
    have same : alone.addresses = ["localhost:6379"] := addresses
    obtain ⟨had, few, -⟩ := connects unreachable
    obtain ⟨address, one, server⟩ := few (by decide)
    obtain rfl : "localhost:6379" = address := List.singleton_inj.mp (same.symm.trans one)
    exact ⟨same, had, server⟩

end Service

end SearchLoad
