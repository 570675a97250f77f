import ContractExec.Backend.Memory
import ContractExec.Proofs.Balances

/-!
# Balances in the store

A memory backend takes each transfer from its source before it gives it to its target, and works on
running balances. An effective balance is computed for one address at a time, and counts what comes
in before what goes out. Both refuse what leaves the range of amounts, at different moments, and
where neither refuses, they agree.

* `move_exact` — one transfer adds and takes its value, and leaves other balances as they are;
* `move_covered` — one transfer that its source can pay and its target can hold;
* `exists_moved` — **a covered record whose balances can all be told is worked out by the store**, to
  these balances, and for the parties of its transfers alone.
-/

namespace ContractExec

/-- An address that gives or gets value in a transfer. -/
def Transfer.IsParty (t : Transfer) (address : Address) : Prop :=
  t.source = address ∨ t.target = address

namespace MemoryBackend

variable {store : MemoryBackend} {moved : Moved} {t : Transfer}

theorem balanceIn_empty (address : Address) : store.balanceIn ∅ address = store.balance address := by
  rw [balanceIn, Std.ExtTreeMap.getElem?_empty]
  rfl

theorem balanceIn_insert (moved : Moved) (k : Address) (balance : Amount) (address : Address) :
    store.balanceIn (moved.insert k balance) address
      = if k = address then balance else store.balanceIn moved address := by
  rw [balanceIn, Std.ExtTreeMap.getElem?_insert, balanceIn]
  simp only [Std.LawfulEqCmp.compare_eq_iff_eq]
  split <;> rfl

/-- What is moved to an address can be added to its balance if the balance after the transfer can be
told. -/
theorem exists_credit {balance after : Amount} {address : Address}
    (h : t.adjust address balance = some after) (htarget : t.target = address) :
    ∃ credited, balance.add? t.value = some credited := by
  rw [Transfer.adjust, if_pos htarget] at h
  obtain ⟨credited, hcredit, -⟩ := Option.bind_eq_some_iff.mp h
  exact ⟨credited, hcredit⟩

/-- What was just taken from an address fits there again; to another address it fits if it can be added
to the balance before. -/
theorem exists_credited {source : Amount}
    (hsource : (store.balanceIn moved t.source).sub? t.value = some source)
    (hfits : t.source ≠ t.target →
      ∃ credited, (store.balanceIn moved t.target).add? t.value = some credited) :
    ∃ target, (store.balanceIn (moved.insert t.source source) t.target).add? t.value
      = some target := by
  rw [balanceIn_insert]
  split
  case isTrue hself =>
    have hdebit := Amount.sub?_eq_some_iff.mp hsource
    exact ⟨store.balanceIn moved t.source, Amount.add?_eq_some_iff.mpr hdebit.symm⟩
  case isFalse hother => exact hfits hother

/-- All that one transfer does to the balances of a store. -/
theorem move_cases {moved' : Moved} (h : store.move moved t = .ok moved') :
    ∃ source target, (store.balanceIn moved t.source).sub? t.value = some source ∧
      (store.balanceIn (moved.insert t.source source) t.target).add? t.value = some target ∧
      moved' = (moved.insert t.source source).insert t.target target := by
  rw [move] at h
  split at h
  case h_1 => nomatch h
  case h_2 source hsource =>
    dsimp only at h
    split at h
    case h_1 => nomatch h
    case h_2 target htarget =>
      injection h with hsame
      exact ⟨source, target, hsource, htarget, hsame.symm⟩

/-- **One transfer** adds and takes its value, and leaves other balances as they are. -/
theorem move_exact {moved' : Moved} (h : store.move moved t = .ok moved') (a : Address) :
    (store.balanceIn moved' a).toNat + outgoing a [t]
      = (store.balanceIn moved a).toNat + incoming a [t] := by
  obtain ⟨source, target, hsource, htarget, rfl⟩ := move_cases h
  have hdebit := Amount.sub?_eq_some_iff.mp hsource
  have hcredit := Amount.add?_eq_some_iff.mp htarget
  rw [balanceIn_insert] at hcredit
  rw [balanceIn_insert, balanceIn_insert]
  simp only [incoming, outgoing]
  by_cases hs : t.source = a <;> by_cases ht : t.target = a
  · subst hs
    rw [if_pos ht.symm] at hcredit
    simp only [if_pos, ht]
    omega
  · subst hs
    simp only [if_neg ht, if_pos]
    omega
  · subst ht
    rw [if_neg hs] at hcredit
    simp only [if_neg hs, if_pos]
    omega
  · simp only [if_neg hs, if_neg ht]

/-- **One transfer** that its source can pay, after which all balances can be told. -/
theorem move_covered (hpay : t.value ≤ store.balanceIn moved t.source)
    (hreadable : ∀ a, ∃ after, t.adjust a (store.balanceIn moved a) = some after) :
    ∃ moved', store.move moved t = .ok moved' ∧
      (∀ a, t.adjust a (store.balanceIn moved a) = some (store.balanceIn moved' a)) ∧
      ∀ a, a ∈ moved' ↔ a ∈ moved ∨ t.IsParty a := by
  obtain ⟨source, hsource⟩ : ∃ source, (store.balanceIn moved t.source).sub? t.value = some source :=
    ⟨_, if_pos hpay⟩
  obtain ⟨target, htarget⟩ := exists_credited hsource fun _ => by
    obtain ⟨after, hafter⟩ := hreadable t.target
    exact exists_credit hafter rfl
  have hmove : store.move moved t = .ok ((moved.insert t.source source).insert t.target target) := by
    rw [move, hsource]
    dsimp only
    rw [htarget]
  refine ⟨_, hmove, ?_, ?_⟩
  · intro a
    obtain ⟨after, hafter⟩ := hreadable a
    have hexact := toNat_adjust hafter
    have hmoved := move_exact hmove a
    rw [hafter, Option.some_inj, ← BitVec.toNat_inj]
    omega
  · intro a
    rw [Std.ExtTreeMap.mem_insert, Std.ExtTreeMap.mem_insert, Std.LawfulEqCmp.compare_eq_iff_eq,
      Std.LawfulEqCmp.compare_eq_iff_eq, Transfer.IsParty]
    constructor
    · rintro (ht | hs | hmoved)
      · exact .inr (.inr ht)
      · exact .inr (.inl hs)
      · exact .inl hmoved
    · rintro (hmoved | hs | ht)
      · exact .inr (.inr hmoved)
      · exact .inr (.inl hs)
      · exact .inl ht

/-- **A covered record whose balances can all be told is worked out by the store**, to these
balances, and for the parties of its transfers alone. -/
theorem exists_moved {transfers : List Transfer} (hcovered : Affordable store.balance transfers)
    (hreadable : ∀ a, ∃ balance, effectiveBalance (store.balance a) transfers a = .ok balance) :
    ∃ moved, transfers.foldlM store.move ∅ = .ok moved ∧
      (∀ a, effectiveBalance (store.balance a) transfers a = .ok (store.balanceIn moved a)) ∧
      ∀ a, a ∈ moved ↔ ∃ t ∈ transfers, t.IsParty a := by
  -- on the last transfer, since both sides work through the record from its beginning
  rcases List.eq_nil_or_concat transfers with rfl | ⟨before, t, hsplit⟩
  · refine ⟨∅, rfl, fun a => by rw [effectiveBalance_nil, balanceIn_empty], fun a => ?_⟩
    simp
  · rw [List.concat_eq_append] at hsplit
    subst hsplit
    have hafter : ∀ a, ∃ b after, effectiveBalance (store.balance a) before a = .ok b ∧
        t.adjust a b = some after := by
      intro a
      obtain ⟨balance, hbalance⟩ := hreadable a
      obtain ⟨b, hb, hadjust⟩ := effectiveBalance_concat_eq_ok_iff.mp hbalance
      exact ⟨b, balance, hb, hadjust⟩
    obtain ⟨moved, hmoved, hbalances, hparties⟩ := exists_moved hcovered.of_append fun a => by
      obtain ⟨b, after, hb, -⟩ := hafter a
      exact ⟨b, hb⟩
    have hpay : t.value ≤ store.balanceIn moved t.source := by
      obtain ⟨balance, hbalance, hpay⟩ := hcovered before t [] (by simp)
      rw [hbalances t.source] at hbalance
      rw [Except.ok.inj hbalance]
      exact hpay
    have hadjust : ∀ a, ∃ after, t.adjust a (store.balanceIn moved a) = some after := by
      intro a
      obtain ⟨b, after, hb, hadjust⟩ := hafter a
      rw [hbalances a] at hb
      rw [Except.ok.inj hb]
      exact ⟨after, hadjust⟩
    obtain ⟨moved', hmove, hbalances', hparties'⟩ := move_covered hpay hadjust
    refine ⟨moved', ?_, fun a => ?_, fun a => ?_⟩
    · rw [List.foldlM_append, hmoved]
      show (store.move moved t).bind _ = _
      rw [hmove]
      rfl
    · exact effectiveBalance_concat_eq_ok_iff.mpr ⟨_, hbalances a, hbalances' a⟩
    · rw [hparties', hparties]
      simp [or_and_right, exists_or]
termination_by transfers.length

end MemoryBackend

end ContractExec
