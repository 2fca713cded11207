import Spectator.Meter.MeterId

/-!
# The hash of a meter id

`std::hash<MeterId>` folds over the tag map in its iteration order, in 64-bit words. The map of an
equal id may iterate in another order, and the fold sees it.

* `combine`: one turn of the loop. `combine_ne`: two turns do not commute, in bit 60 of the result.
* `MeterId.hash`: the whole function, for any `std::hash<std::string>`.
* `hash_agree_iff`: equal ids have equal hashes, whatever the string hash and the orders, exactly
  if they have at most one tag.
-/

namespace Spectator

/-- One turn of the loop: `tags_hash` after an entry with the hash `pairHash`. -/
def combine (pairHash tagsHash : BitVec 64) : BitVec 64 :=
  tagsHash ^^^ (pairHash + 0x9e3779b9#64 + (tagsHash <<< 6) + (tagsHash >>> 2))

/-- `std::hash<MeterId>`, with `h` for `std::hash<std::string>`; the loop runs in the order `o`. -/
def MeterId.hash (h : Str → BitVec 64) (m : MeterId) (o : m.tags.Iteration) : BitVec 64 :=
  let nameHash := h m.name
  let tagsHash := o.toList.foldl (fun tagsHash e =>
    let pairHash := h e.1 ^^^ (h e.2 <<< 1)
    combine pairHash tagsHash) 0#64
  nameHash ^^^ (tagsHash <<< 1)

/-! ## Two turns of the loop -/

theorem toNat_addend (p c t : BitVec 64) :
    (p + c + (t <<< 6) + (t >>> 2)).toNat =
      (((p.toNat + c.toNat) % 2 ^ 64 + t.toNat * 2 ^ 6 % 2 ^ 64) % 2 ^ 64 + t.toNat / 2 ^ 2) %
        2 ^ 64 := by
  simp only [BitVec.toNat_add, BitVec.toNat_shiftLeft, BitVec.toNat_ushiftRight, Nat.shiftLeft_eq,
    Nat.shiftRight_eq_div_pow]

/-- The addend of a turn, up to bit 60, when the entry's hash has nothing there: bit 62 and above of
the accumulated word come in at bit 60. -/
theorem toNat_addend_mod {p c t : BitVec 64} (hp : p.toNat % 2 ^ 61 = 0) :
    (p + c + (t <<< 6) + (t >>> 2)).toNat % 2 ^ 61 = (c.toNat + t.toNat % 2 ^ 62 * 2 ^ 6 +
      t.toNat % 2 ^ 62 / 2 ^ 2 + 2 ^ 60 * (t.toNat / 2 ^ 62)) % 2 ^ 61 := by
  have h2 : t.toNat / 2 ^ 2 = t.toNat % 2 ^ 62 / 2 ^ 2 + 2 ^ 60 * (t.toNat / 2 ^ 62) := by omega
  have h6 : t.toNat * 2 ^ 6 % 2 ^ 61 = t.toNat % 2 ^ 62 * 2 ^ 6 % 2 ^ 61 := by omega
  rw [toNat_addend, h2]
  omega

/-- A turn adds modulo `2 ^ 62`: the bits above do not matter below. -/
theorem combine_mod (p₁ p₂ t : BitVec 64) (h : p₁.toNat % 2 ^ 62 = p₂.toNat % 2 ^ 62) :
    (combine p₁ t).toNat % 2 ^ 62 = (combine p₂ t).toNat % 2 ^ 62 := by
  unfold combine
  generalize 0x9e3779b9#64 = c
  have hadd : (p₁ + c + (t <<< 6) + (t >>> 2)).toNat % 2 ^ 62 =
      (p₂ + c + (t <<< 6) + (t >>> 2)).toNat % 2 ^ 62 := by
    rw [toNat_addend, toNat_addend]
    omega
  rw [BitVec.toNat_xor, BitVec.toNat_xor, Nat.xor_mod_two_pow, Nat.xor_mod_two_pow, hadd]

/-- Entry hashes that differ in bit 62, and besides at most in bit 63, leave words that differ in
bit 62. -/
theorem combine_testBit (p₁ p₂ t : BitVec 64) (h₁ : p₁.toNat % 2 ^ 63 = 2 ^ 62)
    (h₂ : p₂.toNat % 2 ^ 63 = 0) :
    (combine p₁ t).toNat.testBit 62 ≠ (combine p₂ t).toNat.testBit 62 := by
  unfold combine
  generalize 0x9e3779b9#64 = c
  rw [BitVec.toNat_xor, BitVec.toNat_xor, Nat.testBit_xor, Nat.testBit_xor]
  intro h
  have h := Bool.xor_right_inj.mp h
  simp only [Nat.testBit_eq_decide_div_mod_eq, toNat_addend, decide_eq_decide] at h
  omega

/-- Two turns do not commute: bit 60 of the result tells the order. -/
theorem combine_ne (p₁ p₂ t : BitVec 64) (h₁ : p₁.toNat % 2 ^ 63 = 2 ^ 62)
    (h₂ : p₂.toNat % 2 ^ 63 = 0) :
    (combine p₂ (combine p₁ t)).toNat.testBit 60 ≠
      (combine p₁ (combine p₂ t)).toNat.testBit 60 := by
  have hm := combine_mod p₁ p₂ t (by omega)
  have hb := combine_testBit p₁ p₂ t h₁ h₂
  generalize combine p₁ t = t₁ at hm hb ⊢
  generalize combine p₂ t = t₂ at hm hb ⊢
  unfold combine
  generalize 0x9e3779b9#64 = c
  -- The words agree in bit 60 itself; the shift by two brings bit 62 there.
  have h60 : t₁.toNat.testBit 60 = t₂.toNat.testBit 60 := by
    rw [Nat.testBit_eq_decide_div_mod_eq, Nat.testBit_eq_decide_div_mod_eq, decide_eq_decide]
    omega
  rw [BitVec.toNat_xor, BitVec.toNat_xor, Nat.testBit_xor, Nat.testBit_xor, h60]
  intro h
  have h := Bool.xor_right_inj.mp h
  have ha₁ := toNat_addend_mod (c := c) (t := t₁) (show p₂.toNat % 2 ^ 61 = 0 by omega)
  have ha₂ := toNat_addend_mod (c := c) (t := t₂) (show p₁.toNat % 2 ^ 61 = 0 by omega)
  rw [hm] at ha₁
  simp only [Nat.testBit_eq_decide_div_mod_eq, ne_eq, decide_eq_decide] at h hb
  omega

/-! ## The fold -/

/-- The fold over the entries, before the name comes in. -/
def tagsHash (h : Str → BitVec 64) (entries : List (Str × Str)) : BitVec 64 :=
  entries.foldl (fun t e => combine (h e.1 ^^^ (h e.2 <<< 1)) t) 0#64

theorem MeterId.hash_eq (h : Str → BitVec 64) (m : MeterId) (o : m.tags.Iteration) :
    m.hash h o = h m.name ^^^ (tagsHash h o.toList <<< 1) := rfl

/-- Hashes of one id agree only if the folds agree in every bit but the last. -/
theorem testBit_of_hash_eq {h : Str → BitVec 64} {m : MeterId} {o o' : m.tags.Iteration}
    (e : m.hash h o = m.hash h o') {i : Nat} (hi : i < 63) :
    (tagsHash h o.toList).toNat.testBit i = (tagsHash h o'.toList).toNat.testBit i := by
  rw [MeterId.hash_eq, MeterId.hash_eq, BitVec.xor_right_inj] at e
  have shifted : ∀ x : BitVec 64, (x <<< 1).getLsbD (i + 1) = x.toNat.testBit i := by
    intro x
    rw [BitVec.getLsbD_shiftLeft, BitVec.testBit_toNat]
    simp [show i + 1 < 64 by omega]
  rw [← shifted, ← shifted, e]

/-- The string hash that tells the key `k` from all other strings. -/
def spike (k : Str) (s : Str) : BitVec 64 := if s = k then 0x4000000000000000#64 else 0#64

theorem spike_pair_self (k v : Str) :
    (spike k k ^^^ (spike k v <<< 1)).toNat % 2 ^ 63 = 2 ^ 62 := by
  unfold spike
  by_cases hv : v = k <;> simp [hv]

theorem spike_pair_ne {k k' : Str} (hk : k' ≠ k) (v : Str) :
    (spike k k' ^^^ (spike k v <<< 1)).toNat % 2 ^ 63 = 0 := by
  unfold spike
  by_cases hv : v = k <;> simp [hv, hk]

/-- With two tags there are two orders with different hashes: those that visit two keys last,
the one before the other and the other before the one. -/
theorem MeterId.exists_hash_ne {m : MeterId} (hm : 2 ≤ m.tags.size) :
    ∃ (h : Str → BitVec 64) (o o' : m.tags.Iteration), m.hash h o ≠ m.hash h o' := by
  obtain ⟨o⟩ := UMap.Iteration.nonempty m.tags
  obtain ⟨es, e₁, e₂, ho⟩ : ∃ es e₁ e₂, o.toList = es ++ [e₁, e₂] := by
    have hlen := o.length
    rcases List.eq_nil_or_concat o.toList with h | ⟨l, e₂, h⟩
    · rw [h, List.length_nil] at hlen; omega
    · rcases List.eq_nil_or_concat l with h' | ⟨es, e₁, h'⟩
      · rw [h, h'] at hlen; simp at hlen; omega
      · exact ⟨es, e₁, e₂, by rw [h, h']; simp⟩
  have hne : e₂.1 ≠ e₁.1 := by
    have hk := o.nodupKeys
    rw [ho, List.map_append, List.nodup_append] at hk
    have hk := hk.2.1
    simp at hk
    exact Ne.symm hk
  have hperm : (es ++ [e₂, e₁]).Perm o.toList := by
    rw [ho]
    exact (List.Perm.swap e₁ e₂ []).append_left es
  refine ⟨spike e₁.1, o, o.ofPerm _ hperm, fun e => ?_⟩
  have hbit := testBit_of_hash_eq e (i := 60) (by decide)
  rw [ho] at hbit
  simp only [UMap.Iteration.ofPerm, tagsHash, List.foldl_append, List.foldl_cons,
    List.foldl_nil] at hbit
  exact combine_ne _ _ _ (spike_pair_self _ _) (spike_pair_ne hne _) hbit

/-- With at most one tag there is only one order. -/
theorem MeterId.hash_of_size_le {m : MeterId} (hm : m.tags.size ≤ 1) (h : Str → BitVec 64)
    (o o' : m.tags.Iteration) : m.hash h o = m.hash h o' := by
  have hlist : o.toList = o'.toList := by
    have hp := o.perm o'
    rcases hl : o'.toList with _ | ⟨e, _ | ⟨e', es⟩⟩
    · rw [hl] at hp; exact hp.eq_nil
    · rw [hl] at hp; exact List.perm_singleton.mp hp
    · have hlen := o'.length
      rw [hl, List.length_cons, List.length_cons] at hlen
      omega
  rw [hash_eq, hash_eq, hlist]

/-- **When equal ids hash equally.** The hashes of equal ids agree for every string hash and all
iteration orders of their tag maps, if and only if there is at most one tag. -/
theorem hash_agree_iff (a b : MeterId) (hab : (a == b) = true) :
    (∀ (h : Str → BitVec 64) (oa : a.tags.Iteration) (ob : b.tags.Iteration),
      a.hash h oa = b.hash h ob) ↔ a.tags.size ≤ 1 := by
  obtain ⟨name, tags, id, valid⟩ := a
  obtain ⟨name', tags', id', valid'⟩ := b
  obtain ⟨rfl, rfl⟩ : name = name' ∧ tags = tags' := MeterId.beq_iff.mp hab
  constructor
  · intro hall
    by_contra hsize
    obtain ⟨h, o, o', hne⟩ := MeterId.exists_hash_ne (Nat.lt_of_not_le hsize)
    exact hne (hall h o o')
  · intro hsize h oa ob
    exact MeterId.hash_of_size_le (m := ⟨name, tags, id, valid⟩) hsize h oa ob

/-- The map `{{"a", "1"}, {"b", "2"}}`, visited in this order. -/
def abOrder : UMap.Iteration (UMap.assignIf (fun _ _ => true) (∅ : Tags)
    [(str "a", str "1"), (str "b", str "2")]) :=
  .ofAssignIf _ _ (by decide)

/-- The same map, filled and visited the other way round. -/
def baOrder : UMap.Iteration (UMap.assignIf (fun _ _ => true) (∅ : Tags)
    [(str "b", str "2"), (str "a", str "1")]) :=
  .ofAssignIf _ _ (by decide)

/-- One tag, and in the second map an entry that the constructor drops: the hashes agree. -/
theorem hash_agree_iff_one_tag : ∃ (h : Str → BitVec 64) (a b : MeterId) (oa : a.tags.Iteration)
    (ob : b.tags.Iteration), (a == b) = true ∧ a.tags.size = 1 ∧ a.hash h oa = b.hash h ob := by
  let h : Str → BitVec 64 := fun s => BitVec.ofNat 64 (s.headD 0).toNat
  let la : List (Str × Str) := [(str "a", str "1")]
  let lb : List (Str × Str) := [(str "b", str " "), (str "a", str "1")]
  let a := MeterId.new (str "m") (.ofAssignIf (fun _ _ => true) la (by decide))
  let b := MeterId.new (str "m") (.ofAssignIf (fun _ _ => true) lb (by decide))
  exact ⟨h, a, b, .ofAssignIf validTag la (by decide), .ofAssignIf validTag lb (by decide),
    by decide, by decide, (hash_agree_iff a b (by decide)).mpr (by decide) h _ _⟩

/-- Equal ids may have different hashes. -/
theorem hash_disagree : ∃ (h : Str → BitVec 64) (a b : MeterId) (oa : a.tags.Iteration)
    (ob : b.tags.Iteration), a = .new (str "m") abOrder ∧ b = .new (str "m") baOrder ∧
    (a == b) = true ∧ a.hash h oa ≠ b.hash h ob :=
  ⟨fun s => BitVec.ofNat 64 (s.headD 0).toNat, .new (str "m") abOrder, .new (str "m") baOrder,
    .ofAssignIf validTag abOrder.toList (by decide),
    .ofAssignIf validTag baOrder.toList (by decide), rfl, rfl, by decide, by decide⟩

end Spectator
