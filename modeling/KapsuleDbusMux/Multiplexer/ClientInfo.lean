import KapsuleDbusMux.Matching.Subscriptions
import KapsuleDbusMux.Serial.SerialMap

/-! # Connected clients

The `ClientInfo` of `multiplexer.rs`, and the map the multiplexer keeps them in.
-/

namespace KapsuleDbusMux

structure ClientCredentials where
  uid : UInt32
  pid : Option UInt32
  gid : UInt32
  deriving DecidableEq, Repr

/-- `tx` is what has been put on the channel to the client, oldest first. -/
structure ClientInfo where
  uniqueName : String
  tx : List Message
  ownedNames : Finset String
  matchRules : ClientMatchRules
  credentials : ClientCredentials

abbrev Clients := AssocMap ClientId ClientInfo

/-- The unique name `ClientHandler::accept` gives a client. -/
def muxUniqueName (clientId : ClientId) : String := ":mux." ++ toString clientId

theorem muxUniqueName_injective : Function.Injective muxUniqueName := by
  intro a b h
  have htext : (toString a).toList = (toString b).toList := by
    have hlist := congrArg String.toList h
    simpa [muxUniqueName] using hlist
  have hdigits : Nat.toDigits 10 a = Nat.toDigits 10 b := by
    simpa [Nat.toString_eq_ofList_toDigits] using htext
  rw [← Nat.ofDigitChars_ten_toDigits (n := a), hdigits, Nat.ofDigitChars_ten_toDigits]

theorem isUniqueName_muxUniqueName (clientId : ClientId) :
    isUniqueName (muxUniqueName clientId) = true := by
  simp [isUniqueName, startsWith, muxUniqueName]

def ClientInfo.registered (clientId : ClientId) (credentials : ClientCredentials) : ClientInfo where
  uniqueName := muxUniqueName clientId
  tx := []
  ownedNames := ∅
  matchRules := .new
  credentials := credentials

/-- `find_client_credentials`, with the clients in the order the hash map yields them. -/
def findClientCredentials (infos : List ClientInfo) (name : String) : Option ClientCredentials :=
  match infos.find? (fun info => info.uniqueName == name) with
  | some info => some info.credentials
  | none => (infos.find? (fun info => decide (name ∈ info.ownedNames))).map ClientInfo.credentials

/-- In whatever order the clients come, a search ends at the only one that fits. -/
theorem find?_of_only {clients : Clients} {infos : List ClientInfo}
    (horder : infos.Perm (clients.entries.map Sigma.snd)) {p : ClientInfo → Bool} {c : ClientId}
    {info : ClientInfo} (hl : clients.lookup c = some info) (hfits : p info = true)
    (honly : ∀ c' other, clients.lookup c' = some other → p other = true → c' = c) :
    infos.find? p = some info := by
  have hmem : info ∈ infos :=
    horder.mem_iff.mpr (List.mem_map.mpr ⟨⟨c, info⟩, AList.mem_lookup_iff.mp hl, rfl⟩)
  cases hfind : infos.find? p with
  | none => exact absurd hfits (List.find?_eq_none.mp hfind info hmem)
  | some other =>
      have hother := horder.mem_iff.mp (List.mem_of_find?_eq_some hfind)
      rcases List.mem_map.mp hother with ⟨⟨c', _⟩, hentry, rfl⟩
      have hl' := AList.mem_lookup_iff.mpr hentry
      have hsame := honly c' _ hl' (List.find?_some hfind)
      rw [hsame] at hl'
      exact (Option.some.inj (hl.symm.trans hl')).symm ▸ rfl

theorem find?_of_none {clients : Clients} {infos : List ClientInfo}
    (horder : infos.Perm (clients.entries.map Sigma.snd)) {p : ClientInfo → Bool}
    (hnone : ∀ c info, clients.lookup c = some info → p info = false) : infos.find? p = none := by
  rw [List.find?_eq_none]
  intro info hmem
  rcases List.mem_map.mp (horder.mem_iff.mp hmem) with ⟨⟨c, _⟩, hentry, rfl⟩
  rw [hnone c _ (AList.mem_lookup_iff.mpr hentry)]
  exact Bool.false_ne_true

end KapsuleDbusMux
