import SearchLoad.Text.Blank
import SearchLoad.Text.Quoted

namespace SearchLoad

/-- The value of a variable, if it is set to text. -/
abbrev Lookup := String → Option String

structure ClientSettings where
  addresses : List String
  password : String
deriving DecidableEq, Repr

namespace ClientSettings

/-- The pieces between commas that are not blank, without the blanks around them. -/
def splitAddresses (value : String) : List String :=
  (((value.toList.splitOn ',').map Text.trim).filter fun a => !a.isEmpty).map String.ofList

/-- Where no address is given, a standard one is used. -/
def ofLookup (lookup : Lookup) (addressesName passwordName standard : String) : ClientSettings :=
  let addresses := ((lookup addressesName).map splitAddresses).getD []
  ⟨if addresses.isEmpty then [standard] else addresses, (lookup passwordName).getD ""⟩

/-- A password is shown as empty or as hidden. -/
def text (c : ClientSettings) : String :=
  "ClientConfig \x7b addrs: " ++ Text.quoteAll c.addresses ++ ", password: " ++
    Text.quote (if c.password.isEmpty then "" else "<redacted>") ++ " \x7d"

end ClientSettings

/-- The primary store holds the documents; the search service is under test. -/
structure Settings where
  primary : ClientSettings
  search : ClientSettings
deriving DecidableEq, Repr

namespace Settings

def ofLookup (lookup : Lookup) : Settings where
  primary := .ofLookup lookup "REDIS_ADDRS" "REDIS_PASSWORD" "localhost:6379"
  search := .ofLookup lookup "REDISEARCH_ADDRS" "REDISEARCH_PASSWORD" "localhost:16379"

def text (s : Settings) : String :=
  "Settings \x7b primary: " ++ s.primary.text ++ ", search: " ++ s.search.text ++ " \x7d"

end Settings

end SearchLoad
