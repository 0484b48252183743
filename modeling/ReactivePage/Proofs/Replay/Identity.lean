import Mathlib.Algebra.GroupWithZero.Nat
import ReactivePage.Proofs.Text.Folding
import ReactivePage.Proofs.Text.Marks
import ReactivePage.Replay.Request

namespace ReactivePage

namespace Digest

theorem digitChar_injective {m n : Nat} (hm : m < 16) (hn : n < 16)
    (h : Nat.digitChar m = Nat.digitChar n) : m = n := by
  have hall : ∀ m < 16, ∀ n < 16, Nat.digitChar m = Nat.digitChar n → m = n := by decide
  exact hall m hm n hn h

theorem digitChar_ne_space {n : Nat} (hn : n < 16) : Nat.digitChar n ≠ ' ' := by
  have hall : ∀ n < 16, Nat.digitChar n ≠ ' ' := by decide
  exact hall n hn

theorem mod_pow_eq_of_digits {m n : Nat} (k : Nat)
    (h : ∀ i < k, m / Nat.pow 16 i % 16 = n / Nat.pow 16 i % 16) : m % 16 ^ k = n % 16 ^ k := by
  induction k with
  | zero => rw [Nat.pow_zero, Nat.mod_one, Nat.mod_one]
  | succ k ih =>
    have hlow := ih fun i hi => h i (Nat.lt_succ_of_lt hi)
    have hdigit : m / 16 ^ k % 16 = n / 16 ^ k % 16 := h k (Nat.lt_succ_self k)
    rw [Nat.mod_pow_succ, Nat.mod_pow_succ, hlow, hdigit]

theorem wordHex_injective {v w : UInt32} (h : wordHex v = wordHex w) : v = w := by
  have hdigits : ∀ i < 8, v.toNat / Nat.pow 16 i % 16 = w.toNat / Nat.pow 16 i % 16 := by
    intro i hi
    have hchar := List.map_inj_left.1 h i (List.mem_reverse.2 (List.mem_range.2 hi))
    exact digitChar_injective (Nat.mod_lt _ (by decide)) (Nat.mod_lt _ (by decide)) hchar
  have hmod := mod_pow_eq_of_digits 8 hdigits
  have hlt (x : UInt32) : x.toNat < 16 ^ 8 := x.toNat_lt
  rw [Nat.mod_eq_of_lt (hlt v), Nat.mod_eq_of_lt (hlt w)] at hmod
  exact UInt32.toNat_inj.1 hmod

theorem flatMap_wordHex_injective {u v : List UInt32} (hlength : u.length = v.length)
    (h : u.flatMap wordHex = v.flatMap wordHex) : u = v := by
  -- Pieces of one length can be told apart.
  induction u generalizing v with
  | nil => exact (List.eq_nil_of_length_eq_zero hlength.symm).symm
  | cons x u ih =>
    cases v with
    | nil => cases hlength
    | cons y v =>
      rw [List.flatMap_cons, List.flatMap_cons] at h
      obtain ⟨hword, hrest⟩ := List.append_inj h (by rw [length_wordHex, length_wordHex])
      rw [wordHex_injective hword, ih (Nat.succ.inj hlength) hrest]

theorem hex_injective {x y : Digest} (h : x.hex = y.hex) : x = y := by
  have hwords : [x.a, x.b, x.c, x.d, x.e, x.f, x.g, x.h]
      = [y.a, y.b, y.c, y.d, y.e, y.f, y.g, y.h] := flatMap_wordHex_injective rfl h
  cases x
  cases y
  simpa using hwords

theorem space_not_mem_hex (x : Digest) : ' ' ∉ x.hex := by
  rw [hex, List.mem_flatMap]
  rintro ⟨w, -, hmem⟩
  obtain ⟨i, -, hchar⟩ := List.mem_map.1 hmem
  exact digitChar_ne_space (Nat.mod_lt _ (by decide)) hchar

end Digest

theorem toUpper_of_not_ascii {c : Char} (h : ¬c.toNat < 0x80) : c.toUpper = c :=
  dif_neg fun hlower => h (Nat.lt_of_le_of_lt (UInt32.le_iff_toNat_le.1 hlower.2) (by decide))

theorem space_not_mem_upperAscii {s : String} (h : ' ' ∉ s.toList) :
    ' ' ∉ (upperAscii s).toList := by
  rw [upperAscii, String.toList_map, List.mem_map]
  rintro ⟨c, hmem, hc⟩
  obtain rfl : c = ' ' := by
    by_cases hascii : c.toNat < 0x80
    · exact Text.of_ascii (p := fun c => c.toUpper = ' ' → c = ' ') (by decide +kernel) hascii hc
    · rwa [toUpper_of_not_ascii hascii] at hc
  exact h hmem

namespace Request

variable {body other : String}

theorem space_not_mem_fingerprint (body : String) : ' ' ∉ (fingerprint body).toList := by
  rw [fingerprint]
  split
  · decide
  · rw [String.toList_ofList]
    exact Digest.space_not_mem_hex _

theorem fingerprint_ne_hyphen (h : body ≠ "") : fingerprint body ≠ "-" := by
  intro heq
  have hlength := congrArg (fun s => s.toList.length) heq
  rw [fingerprint, if_neg h, String.toList_ofList, Digest.length_hex] at hlength
  cases hlength

theorem fingerprint_eq_iff :
    fingerprint body = fingerprint other ↔ body = "" ∧ other = "" ∨
      body ≠ "" ∧ other ≠ "" ∧ Digest.ofText body = Digest.ofText other := by
  have hempty : fingerprint "" = "-" := rfl
  by_cases hbody : body = ""
  · subst hbody
    by_cases hother : other = ""
    · simp [hother]
    · simp [hempty, hother, Ne.symm (fingerprint_ne_hyphen hother)]
  · by_cases hother : other = ""
    · subst hother
      simp [hempty, hbody, fingerprint_ne_hyphen hbody]
    · have hdigest : fingerprint body = fingerprint other ↔
          Digest.ofText body = Digest.ofText other := by
        rw [fingerprint, fingerprint, if_neg hbody, if_neg hother]
        exact ⟨fun h => Digest.hex_injective (String.ofList_injective h), fun h => by rw [h]⟩
      simp [hdigest, hbody, hother]

theorem toList_identityOf (method url body : String) :
    (identityOf method url body).toList = (upperAscii method).toList ++
      ' ' :: (url.toList ++ ' ' :: (fingerprint body).toList) := by
  delta identityOf
  simp

/-- The method ends at the first space of an identity, and the fingerprint starts at the last. -/
theorem identityOf_eq_iff {method url body method' url' body' : String}
    (h : ' ' ∉ method.toList) (h' : ' ' ∉ method'.toList) :
    identityOf method url body = identityOf method' url' body' ↔
      upperAscii method = upperAscii method' ∧ url = url' ∧
        fingerprint body = fingerprint body' := by
  have hnone {s : List Char} (hs : ' ' ∉ s) : ∀ c ∈ s, decide (c = ' ') = false :=
    fun c hc => decide_eq_false fun heq => hs (heq ▸ hc)
  constructor
  · intro hsame
    have hlist := congrArg String.toList hsame
    rw [toList_identityOf, toList_identityOf] at hlist
    obtain ⟨hmethod, -, hrest⟩ := Text.cut_at_first (hnone (space_not_mem_upperAscii h))
      (hnone (space_not_mem_upperAscii h')) rfl rfl hlist
    obtain ⟨hurl, -, hprint⟩ := Text.cut_at_last (hnone (space_not_mem_fingerprint _))
      (hnone (space_not_mem_fingerprint _)) rfl rfl hrest
    exact ⟨String.toList_injective hmethod, String.toList_injective hurl,
      String.toList_injective hprint⟩
  · rintro ⟨hmethod, rfl, hprint⟩
    rw [identityOf, identityOf, hmethod, hprint]

/-- Requests have one identity if they agree in method, up to ASCII case, in address and in what is
known of the body. -/
theorem identity_eq_iff {r s : Request} (hr : ' ' ∉ r.method.toList) (hs : ' ' ∉ s.method.toList) :
    r.identity = s.identity ↔
      upperAscii r.method = upperAscii s.method ∧ r.url = s.url ∧
        (r.body = "" ∧ s.body = "" ∨
          r.body ≠ "" ∧ s.body ≠ "" ∧ Digest.ofText r.body = Digest.ofText s.body) := by
  rw [identity, identity, identityOf_eq_iff hr hs, fingerprint_eq_iff]

theorem identity_eq_iff_hyphen :
    let read : Request := ⟨"get", "/a -", ∅, ""⟩
    let headed : Request := ⟨"Get", "/a -", Headers.add ∅ "Accept" "*/*", ""⟩
    let sent (body : String) : Request := ⟨"GET", "/a", ∅, body⟩
    read.identity = headed.identity ∧ read.identity ≠ (sent "").identity ∧
      (sent "abc").identity ≠ (sent "abd").identity := by
  intro read headed sent
  have hread : ' ' ∉ read.method.toList := by decide
  have hsent : ' ' ∉ "GET".toList := by decide
  refine ⟨?_, ?_, ?_⟩
  · exact (identity_eq_iff hread (s := headed) (by decide)).2
      ⟨by decide +kernel, rfl, .inl ⟨rfl, rfl⟩⟩
  · intro h
    exact absurd ((identity_eq_iff hread (s := sent "") hsent).1 h).2.1 (by decide)
  · intro h
    have hdigest : Digest.ofText "abc" ≠ Digest.ofText "abd" := by decide +kernel
    rcases ((identity_eq_iff (r := sent "abc") (s := sent "abd") hsent hsent).1 h).2.2 with
      ⟨hnone, -⟩ | ⟨-, -, hsame⟩
    · exact absurd hnone (by decide)
    · exact hdigest hsame

end Request

end ReactivePage
