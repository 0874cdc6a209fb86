import EventWorker.Proofs.Bytes.Base64
import EventWorker.Proofs.Keyed
import EventWorker.Proofs.Steps
import EventWorker.Sealing.Client

/-!
# The choice of a suite

Of suites with one normal text a list of ciphers advertises one, so what matters about the list is
which normal texts its suites have.

Results:
1. `exists_suitesOf`: the advertised normal texts are those of the suites that the ciphers serve.
2. `Client.suitesOfReply_offer`: the suites are read from the reply that offers them.
3. `Client.negotiate_fails`, `Client.negotiate_chosen`: when a client finds no common suite, and
   what it has when it finds one.
-/

namespace EventWorker

open Json (Value FieldSpec)

/-- Some of the ciphers serves the suite. -/
def Serve (ciphers : List Cipher) (s : Suite) : Prop :=
  ∃ c ∈ ciphers, s ∈ c.suites

/-! ## The suites of several ciphers -/

section

/-- The suites so far, and another one unless one of its normal text is there. -/
abbrev addSuite (acc : List Suite) (s : Suite) : List Suite :=
  if acc.any fun t => t.normalized = s.normalized then acc else acc ++ [s]

theorem mem_foldl_addSuite {suites acc : List Suite} {s : Suite}
    (h : s ∈ suites.foldl addSuite acc) : s ∈ acc ∨ s ∈ suites := by
  induction suites generalizing acc with
  | nil => exact .inl h
  | cons x rest ih =>
    rcases ih h with h | h
    · unfold addSuite at h
      split at h
      · exact .inl h
      · rcases List.mem_append.mp h with h | h
        · exact .inl h
        · exact .inr (List.mem_singleton.mp h ▸ List.mem_cons_self)
    · exact .inr (List.mem_cons_of_mem _ h)

/-- No normal text is lost: that of a suite that is left out was there before. -/
theorem foldl_addSuite_covers {suites acc : List Suite} {s : Suite} (h : s ∈ acc ∨ s ∈ suites) :
    ∃ t ∈ suites.foldl addSuite acc, t.normalized = s.normalized := by
  induction suites generalizing acc s with
  | nil => exact ⟨s, h.resolve_right List.not_mem_nil, rfl⟩
  | cons x rest ih =>
    have kept (u : Suite) (hu : u ∈ acc) : u ∈ addSuite acc x := by
      unfold addSuite
      split
      · exact hu
      · exact List.mem_append_left _ hu
    rcases h with h | h
    · exact ih (.inl (kept s h))
    · rcases List.mem_cons.mp h with rfl | h
      · by_cases there : (acc.any fun t => t.normalized = s.normalized) = true
        · obtain ⟨t, ht, same⟩ := List.any_eq_true.mp there
          obtain ⟨u, hu, same'⟩ := ih (.inl (kept t ht))
          exact ⟨u, hu, same'.trans (of_decide_eq_true same)⟩
        · refine ih (.inl ?_)
          rw [addSuite, if_neg there]
          exact List.mem_append_right _ List.mem_cons_self
      · exact ih (.inr h)

end

variable {ciphers : List Cipher} {s : Suite}

theorem serve_of_mem_suitesOf (h : s ∈ suitesOf ciphers) : Serve ciphers s := by
  rcases mem_foldl_addSuite h with h | h
  · cases h
  · exact List.mem_flatMap.mp h

theorem Serve.exists_mem_suitesOf (h : Serve ciphers s) :
    ∃ t ∈ suitesOf ciphers, t.normalized = s.normalized :=
  foldl_addSuite_covers (.inr (List.mem_flatMap.mpr h))

/-- The advertised normal texts are those of all suites, in whatever order the ciphers stand. -/
theorem exists_suitesOf (text : String) :
    (∃ t ∈ suitesOf ciphers, t.normalized = text) ↔ ∃ s, Serve ciphers s ∧ s.normalized = text := by
  constructor
  · rintro ⟨t, ht, same⟩
    exact ⟨t, serve_of_mem_suitesOf ht, same⟩
  · rintro ⟨s, hs, rfl⟩
    exact hs.exists_mem_suitesOf

theorem Serve.perm {ciphers' : List Cipher} (h : Serve ciphers s) (perm : ciphers.Perm ciphers') :
    Serve ciphers' s := by
  obtain ⟨c, hc, listed⟩ := h
  exact ⟨c, perm.mem_iff.mp hc, listed⟩

/-- The suites of the built-in ciphers. -/
inductive Cipher.Offers : Cipher → Suite → Prop
  | none : Offers .none ⟨"none", "none", -1⟩
  | plaintext : Offers .plaintext ⟨"plaintext", "none", -1⟩
  | aes128 : Offers .aes ⟨"aes", "gcm", 128⟩
  | aes256 : Offers .aes ⟨"aes", "gcm", 256⟩
  | xchacha20 : Offers .xchacha20 ⟨"xchacha20", "poly1305", 256⟩

theorem Cipher.offers_of_listed {c : Cipher} (known : c ∈ Cipher.builtin) (listed : s ∈ c.suites) :
    c.Offers s := by
  simp only [Cipher.builtin, List.mem_cons, List.not_mem_nil, or_false] at known
  rcases known with rfl | rfl | rfl | rfl
  · exact List.mem_singleton.mp listed ▸ .none
  · exact List.mem_singleton.mp listed ▸ .plaintext
  · rcases List.mem_cons.mp listed with rfl | listed
    · exact .aes128
    · exact List.mem_singleton.mp listed ▸ .aes256
  · exact List.mem_singleton.mp listed ▸ .xchacha20

/-! ## Suites in JSON -/

theorem Suite.ofValue?_toValue (fits : fitsSigned s.keyLength = true) :
    Suite.ofValue? s.toValue = some s := by
  have length : keyLength? (.int s.keyLength) = some s.keyLength := if_pos fits
  simp [ofValue?, toValue, Value.object, Json.record?, Keyed.ofList, Keyed.find?_insert,
    FieldSpec.read?, FieldSpec.required, Value.str?, length]

theorem mapM_ofValue?_toValue {suites : List Suite}
    (fits : ∀ s ∈ suites, fitsSigned s.keyLength = true) :
    (suites.map Suite.toValue).mapM Suite.ofValue? = some suites := by
  induction suites with
  | nil => rfl
  | cons s rest ih =>
    rw [List.map_cons, List.mapM_cons, Suite.ofValue?_toValue (fits s List.mem_cons_self),
      Option.bind_eq_bind, Option.bind_some, ih fun t ht => fits t (List.mem_cons_of_mem _ ht)]
    rfl

namespace Client

/-- The suites are read from a reply that offers them. -/
theorem suitesOfReply_offer {reply : Event} {suites : List Suite}
    (offered : Keyed.find? "cipher_suites" reply.payload = some (.arr (suites.map Suite.toValue)))
    (fits : ∀ s ∈ suites, fitsSigned s.keyLength = true) :
    suitesOfReply reply = .ok suites := by
  unfold suitesOfReply
  rw [offered]
  dsimp only [Value.items?]
  rw [Option.bind_some, mapM_ofValue?_toValue fits]

/-! ## The choice -/

variable {client client' : Client} {offered : List Suite} {pick : Nat → Nat} {draw : Nat → Bytes}

theorem mem_common {own : List Suite} :
    s ∈ Negotiation.common offered own ↔ s ∈ own ∧ ∃ t ∈ offered, t.normalized = s.normalized := by
  simp [Negotiation.common]

theorem choose_nil {own : List Suite} (nothing : Negotiation.common offered own = []) :
    Negotiation.choose pick offered own = .error .noCommonSuite := by
  simp only [Negotiation.choose, nothing]
  rfl

/-- Some common suite is taken, if there is one. -/
theorem choose_of_mem (pick : Nat → Nat) {own : List Suite}
    (something : Negotiation.common offered own ≠ []) :
    ∃ s ∈ Negotiation.common offered own, Negotiation.choose pick offered own = .ok s := by
  have inside : pick (Negotiation.common offered own).length %
      (Negotiation.common offered own).length < (Negotiation.common offered own).length :=
    Nat.mod_lt _ (List.length_pos_iff.mpr something)
  refine ⟨_, List.getElem_mem inside, ?_⟩
  simp only [Negotiation.choose, List.getElem?_eq_getElem inside]

/-- The client finds no suite when no own one has the normal text of one that is offered. -/
theorem negotiate_fails :
    client.negotiate offered pick draw = .error .noCommonSuite ↔
      ∀ s ∈ client.toolkit.suites, ∀ t ∈ offered, t.normalized ≠ s.normalized := by
  by_cases nothing : Negotiation.common offered client.toolkit.suites = []
  · refine ⟨fun _ s hs t ht same => ?_, fun _ => ?_⟩
    · have both := mem_common.mpr ⟨hs, t, ht, same⟩
      rw [nothing] at both
      cases both
    · rw [negotiate, choose_nil nothing]
      rfl
  · obtain ⟨s, hs, chosen⟩ := choose_of_mem pick nothing
    obtain ⟨own, t, ht, same⟩ := mem_common.mp hs
    refine ⟨fun fails => ?_, fun apart => absurd same (apart s own t ht)⟩
    rw [negotiate, chosen] at fails
    cases fails

/-- It does not fail otherwise, and has an own suite that is offered and a key for it. -/
theorem negotiate_chosen
    (some_common : client.negotiate offered pick draw ≠ .error .noCommonSuite) :
    ∃ s, client.negotiate offered pick draw =
        .ok (s, { client with suite? := some s
                              key := Bytes.Base64.encodeText (draw (keyBytes s)) }) ∧
      s ∈ client.toolkit.suites ∧ ∃ t ∈ offered, t.normalized = s.normalized := by
  have something : Negotiation.common offered client.toolkit.suites ≠ [] := by
    intro nothing
    refine some_common ?_
    rw [negotiate, choose_nil nothing]
    rfl
  obtain ⟨s, hs, chosen⟩ := choose_of_mem pick something
  obtain ⟨own, t, ht, same⟩ := mem_common.mp hs
  refine ⟨s, ?_, own, t, ht, same⟩
  rw [negotiate, chosen]
  rfl

theorem negotiate_ok (negotiated : client.negotiate offered pick draw = .ok (s, client')) :
    client' = { client with suite? := some s
                            key := Bytes.Base64.encodeText (draw (keyBytes s)) } ∧
      s ∈ client.toolkit.suites ∧ ∃ t ∈ offered, t.normalized = s.normalized := by
  have succeeds : client.negotiate offered pick draw ≠ .error .noCommonSuite := by
    rw [negotiated]
    exact nofun
  obtain ⟨s', chosen, own, common⟩ := negotiate_chosen succeeds
  cases negotiated.symm.trans chosen
  exact ⟨rfl, own, common⟩

end Client

end EventWorker
