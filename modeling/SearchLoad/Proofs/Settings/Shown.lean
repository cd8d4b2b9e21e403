import SearchLoad.Proofs.Text.Quoting
import SearchLoad.Settings

namespace SearchLoad

open Text

namespace ClientSettings

/-- The addresses, and whether the password is empty. -/
def shown (c : ClientSettings) : List String × Bool := (c.addresses, c.password.isEmpty)

/-- How a password is shown. -/
def mask (empty : Bool) : String := if empty then "" else "<redacted>"

theorem mask_injective : Function.Injective mask := by
  have apart : ∀ a b, mask a = mask b → a = b := by decide
  exact fun a b same => apart a b same

/-- The characters that show a client. -/
def write (p : List String × Bool) : List Char :=
  "ClientConfig \x7b addrs: ".toList ++ ((quoteAll p.1).toList ++
    (", password: ".toList ++ ((quote (mask p.2)).toList ++ " \x7d".toList)))

theorem toList_text (c : ClientSettings) : c.text.toList = write c.shown := by
  unfold text write
  simp only [String.toList_append, List.append_assoc]
  rfl

theorem selfDelimiting_write : SelfDelimiting write := by
  have password := ((selfDelimiting_quote.comp mask_injective).before " \x7d".toList).behind
    ", password: ".toList
  exact (selfDelimiting_quoteAll.append password).behind _

theorem shown_eq_iff {c d : ClientSettings} : c.shown = d.shown ↔
    c.addresses = d.addresses ∧ (c.password = "" ↔ d.password = "") := by
  rw [shown, shown, Prod.mk.injEq, Bool.eq_iff_iff, String.isEmpty_iff, String.isEmpty_iff]

end ClientSettings

namespace Settings

/-- What both clients show. -/
def shown (s : Settings) : (List String × Bool) × (List String × Bool) :=
  (s.primary.shown, s.search.shown)

/-- The characters that show settings. -/
def write (p : (List String × Bool) × (List String × Bool)) : List Char :=
  "Settings \x7b primary: ".toList ++ (ClientSettings.write p.1 ++
    (", search: ".toList ++ ClientSettings.write p.2)) ++ " \x7d".toList

theorem toList_text (s : Settings) : s.text.toList = write s.shown := by
  unfold text write
  simp only [String.toList_append, List.append_assoc, ClientSettings.toList_text]
  rfl

theorem selfDelimiting_write : SelfDelimiting write := by
  have search := ClientSettings.selfDelimiting_write.behind ", search: ".toList
  exact ((ClientSettings.selfDelimiting_write.append search).behind _).before _

theorem text_eq_iff {s t : Settings} :
    s.text = t.text ↔ s.primary.shown = t.primary.shown ∧ s.search.shown = t.search.shown := by
  rw [← String.toList_inj, toList_text, toList_text, selfDelimiting_write.injective.eq_iff,
    shown, shown, Prod.mk.injEq]

/-- The text of settings tells the addresses of both clients, and of their passwords nothing but
whether they are empty. -/
theorem text_tells_addresses_only (s t : Settings) :
    s.text = t.text ↔
      (s.primary.addresses = t.primary.addresses ∧
        (s.primary.password = "" ↔ t.primary.password = "")) ∧
      (s.search.addresses = t.search.addresses ∧
        (s.search.password = "" ↔ t.search.password = "")) := by
  rw [text_eq_iff, ClientSettings.shown_eq_iff, ClientSettings.shown_eq_iff]

-- One address that looks like two once it is quoted, and two addresses.
example : (ClientSettings.mk ["a\", \"b"] "").text ≠ (ClientSettings.mk ["a", "b"] "").text := by
  decide +kernel

end Settings

end SearchLoad
