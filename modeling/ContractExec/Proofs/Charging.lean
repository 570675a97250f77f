import ContractExec.Proofs.Metering
import ContractExec.Proofs.Rollback

/-!
# Charging before acting

A request with a price is paid before anything else is done. So a request that cannot be paid does
nothing at all but bring the meter to its limit, and one that can be paid puts just its price on the meter
and then does one thing. Requests that only a constructor may make have no price.

* `priceOf` — a flat part and a price for each byte, in the natural numbers;
* `Arena.Amends` — one record of one layer was changed, and nothing else;
* `Active.PaysFirst` — what a priced request does, whatever the gas is that is left;
* `Active.ConstructsOnly` — what a request does that only a constructor may make;
* `charges_before_acting` — **every request with a price is paid before it acts**.
-/

namespace ContractExec

variable {ν β : Type}

/-! ### Prices -/

/-- A flat part and a price for each byte, held at the greatest amount of gas. -/
def priceOf (base perByte : Gas) (length : Nat) : Nat :=
  min (base.toNat + perByte.toNat * length) Gas.greatest

theorem toNat_perByte_eq (base perByte : Gas) (length : Nat) :
    (Config.perByte base perByte length).toNat = priceOf base perByte length :=
  Config.toNat_perByte base perByte length

/-! ### One record of one layer -/

/-- The second arena is the first one but for the record of one account in one layer. A record that is
not there yet is an empty one. -/
structure Arena.Amends (x : Arena) (layer : Nat) (address : Address)
    (change : AccountChange → AccountChange) (y : Arena) : Prop where
  backend_eq : y.backend = x.backend
  others : ∀ i, i ≠ layer → y.layers[i]? = x.layers[i]?
  record : ∃ l, x.layers[layer]? = some l ∧
    y.layers[layer]? = some { l with
      changes := l.changes.insert address (change (l.changes[address]?.getD {})) }

/-- A write to the top layer changes the record of its account there. -/
theorem Arena.Linked.amends_write {arena : Arena} (h : arena.Linked) (address : Address) (w : Write) :
    ∃ written, arena.write arena.top address w = .ok written ∧
      arena.Amends arena.top address (fun change => change.write w) written := by
  obtain ⟨written, hwrite, -, hsize, hbelow, hlayer⟩ := h.write address w
  obtain ⟨changes, htop⟩ := h.exists_top
  refine ⟨written, hwrite, hbelow.backend, fun i hi => ?_, _, htop, ?_⟩
  · rcases Nat.lt_or_gt_of_ne hi with hlt | hgt
    · exact hbelow.layer i hlt
    · have habove : arena.layers.size ≤ i := by rw [h.size_eq]; omega
      rw [Array.getElem?_eq_none habove, Array.getElem?_eq_none (by rw [hsize]; exact habove)]
  · rw [hlayer, htop]
    rfl

/-! ### One request -/

namespace Active

variable {x : Active ν} {nested : Applying ν}

/-- What comes of a request that has a price. If the price exceeds what is available, the request is
refused with the meter at its limit and nothing else changed. Otherwise the meter has advanced by just
the price, and of all else only the state has changed, in one way. -/
structure PaysFirst (x : Active ν) (price : Nat) (refusal answer : β) (effect : State ν → Prop)
    (result : β × Active ν) : Prop where
  refused : x.frame.meter.available.toNat < price →
    result = (refusal, { x with
      frame := { x.frame with meter := ⟨x.frame.meter.limit, x.frame.meter.limit⟩ } })
  paid : price ≤ x.frame.meter.available.toNat →
    ∃ consumed s, consumed.toNat = x.frame.meter.consumed.toNat + price ∧ effect s ∧
      result = (answer, ⟨{ x.frame with meter := ⟨x.frame.meter.limit, consumed⟩ }, s⟩)

/-- What comes of a request that only a constructor may make. The meter is not touched: either nothing
has changed, or one record of the contract in the layer of its frame. -/
structure ConstructsOnly (x : Active ν) (refusal answer : β) (change : AccountChange → AccountChange)
    (result : β × Active ν) : Prop where
  refused : x.frame.constructing = false → result = (refusal, x)
  written : x.frame.constructing = true →
    ∃ arena, x.state.arena.Amends x.frame.layer x.contract change arena ∧
      result = (answer, { x with state := { x.state with arena } })

theorem charge_refused (hwithin : x.frame.meter.consumed ≤ x.frame.meter.limit) {cost : Gas}
    (h : x.frame.meter.available.toNat < cost.toNat) :
    x.charge cost = (.error .outOfGas, { x with
      frame := { x.frame with meter := ⟨x.frame.meter.limit, x.frame.meter.limit⟩ } }) := by
  have hpinned : max x.frame.meter.consumed x.frame.meter.limit = x.frame.meter.limit :=
    if_pos hwithin
  rw [charge, Meter.charge_of_lt (UInt64.lt_iff_toNat_lt.mpr h)]
  dsimp only
  rw [hpinned]

theorem charge_paid {cost : Gas} (h : cost.toNat ≤ x.frame.meter.available.toNat) :
    ∃ consumed : Gas, consumed.toNat = x.frame.meter.consumed.toNat + cost.toNat ∧
      x.charge cost = (.ok (), { x with
        frame := { x.frame with meter := ⟨x.frame.meter.limit, consumed⟩ } }) := by
  have hfits := UInt64.le_iff_toNat_le.mpr h
  have hconsumed := Meter.toNat_consumed_charge hfits
  rw [Meter.charge_of_le hfits] at hconsumed
  exact ⟨_, hconsumed, by rw [charge, Meter.charge_of_le hfits]⟩

/-- What pays before it acts and then changes the state alone. -/
theorem paysFirst_paying {act : Active ν → Except Fault β × Active ν} {value : β} {after : State ν}
    {effect : State ν → Prop} (hwithin : x.frame.meter.consumed ≤ x.frame.meter.limit) (cost : Gas)
    (hact : ∀ frame, act ⟨frame, x.state⟩ = (.ok value, ⟨frame, after⟩)) (heffect : effect after) :
    x.PaysFirst cost.toNat (.error .outOfGas) (.ok value) effect (x.paying cost act) where
  refused h := by rw [paying, charge_refused hwithin h]
  paid h := by
    obtain ⟨consumed, hconsumed, hcharge⟩ := charge_paid h
    refine ⟨consumed, after, hconsumed, heffect, ?_⟩
    rw [paying, hcharge]
    exact hact _

theorem paysFirst_recordCost (hwithin : x.frame.meter.consumed ≤ x.frame.meter.limit) (cost : Gas) :
    x.PaysFirst cost.toNat (.error .outOfGas) (.ok ()) (· = x.state) (x.charge cost) where
  refused h := charge_refused hwithin h
  paid h := by
    obtain ⟨consumed, hconsumed, hcharge⟩ := charge_paid h
    exact ⟨consumed, x.state, hconsumed, rfl, hcharge⟩

theorem write_top (hlinked : x.state.arena.Linked) (htop : x.frame.layer = x.state.arena.top)
    (w : Write) :
    ∃ arena, x.state.arena.Amends x.frame.layer x.contract (fun change => change.write w) arena ∧
      x.write w = (.ok (), { x with state := { x.state with arena } }) := by
  obtain ⟨arena, hwrite, hamends⟩ := hlinked.amends_write x.contract w
  rw [← htop] at hwrite hamends
  exact ⟨arena, hamends, by rw [write, hwrite]⟩

theorem paysFirst_setStorage (hlinked : x.state.arena.Linked)
    (htop : x.frame.layer = x.state.arena.top)
    (hwithin : x.frame.meter.consumed ≤ x.frame.meter.limit) (key value : Bytes) :
    x.PaysFirst (x.state.config.storageSaveCost key value).toNat (.error (.fault .outOfGas)) (.ok ())
      (fun s => ∃ arena, s = { x.state with arena } ∧
        x.state.arena.Amends x.frame.layer x.contract
          (fun change => { change with storage := change.storage.insert key value }) arena)
      (x.setStorage key value) where
  refused h := by rw [setStorage, charge_refused hwithin h]
  paid h := by
    obtain ⟨consumed, hconsumed, hcharge⟩ := charge_paid h
    -- what was paid left the arena and the layer of the frame alone
    obtain ⟨arena, hamends, hwrite⟩ := write_top
      (x := ⟨{ x.frame with meter := ⟨x.frame.meter.limit, consumed⟩ }, x.state⟩) hlinked htop
      (.setStorage key value)
    refine ⟨consumed, _, hconsumed, ⟨arena, rfl, hamends⟩, ?_⟩
    rw [setStorage, hcharge]
    exact hwrite

theorem constructsOnly_construct (hlinked : x.state.arena.Linked)
    (htop : x.frame.layer = x.state.arena.top) (w : Write) :
    x.ConstructsOnly (.error (.fault .codeImmutable)) (.ok ()) (fun change => change.write w)
      (x.construct w) where
  refused h := by rw [construct, if_neg (by simp [h])]
  written h := by
    obtain ⟨arena, hamends, hwrite⟩ := write_top hlinked htop w
    exact ⟨arena, hamends, by rw [construct, if_pos h, hwrite]⟩

/-- What all requests of a frame pay and do that lead to no other frame and either have a price or
change something. -/
structure ChargesFirst (nested : Applying ν) (x : Active ν) : Prop where
  recordCost : ∀ cost : Gas,
    x.PaysFirst cost.toNat (.error .outOfGas) (.ok ()) (· = x.state)
      (x.answer nested (.recordCost cost))
  /-- The price depends on the value that is found. -/
  storage : ∀ key value, (x.world x.contract).storage key = value →
    x.PaysFirst
      (priceOf x.state.config.storageRetrieveBase x.state.config.storageRetrievePerByte
        (key.length + (value.map List.length).getD 0))
      (.error .outOfGas) (.ok value) (· = x.state) (x.answer nested (.storage key))
  setStorage : ∀ key value,
    x.PaysFirst
      (priceOf x.state.config.storageSaveBase x.state.config.storageSavePerByte
        (key.length + value.length))
      (.error (.fault .outOfGas)) (.ok ())
      (fun s => ∃ arena, s = { x.state with arena } ∧
        x.state.arena.Amends x.state.arena.top x.contract
          (fun change => { change with storage := change.storage.insert key value }) arena)
      (x.answer nested (.setStorage key value))
  log : ∀ topics data,
    x.PaysFirst
      (priceOf x.state.config.logBase x.state.config.logPerByte
        (topics.flatten.length + data.length))
      (.error .outOfGas) (.ok ())
      (· = { x.state with logs := x.state.logs ++ [⟨x.contract, topics, data⟩] })
      (x.answer nested (.log topics data))
  hash : ∀ data,
    x.PaysFirst (priceOf 0 x.state.config.hashPerByte data.length) (.error .outOfGas)
      (.ok (Hash.keccak data)) (· = x.state) (x.answer nested (.hash data))
  setCode : ∀ code,
    x.ConstructsOnly (.error (.fault .codeImmutable)) (.ok ())
      (fun change => { change with code := some code }) (x.answer nested (.setCode code))
  setContractType : ∀ typeName,
    x.ConstructsOnly (.error (.fault .codeImmutable)) (.ok ())
      (fun change => { change with contractType := some typeName })
      (x.answer nested (.setContractType typeName))

end Active

/-- **Every request with a price is paid before it acts.** Take a frame whose code runs at any moment of a
transaction, under any schedule, with its layer on top. A cost that is recorded, and a request to read or
write storage, to log or to hash, is refused for want of gas if its price exceeds what is available; then
the meter stands at its limit and nothing else has changed. Otherwise the meter has advanced by exactly
the price, and apart from that one storage entry of the frame's own contract was written in the top layer,
one log was added in the name of the contract, or nothing was done. Code and type are set without a
charge, outside a constructor not at all, and otherwise nothing else is changed. -/
theorem charges_before_acting {waiting : List Frame} {program : Program ν Outcome} {x : Active ν}
    (hμ : (Moment.running waiting program x).Reached) (htop : x.frame.layer = x.state.arena.top)
    (nested : Applying ν) : x.ChargesFirst nested := by
  have hlinked : x.state.arena.Linked := hμ.sound.state.linked
  have hmetered := hμ.metered x.frame List.mem_cons_self
  have hwithin : x.frame.meter.consumed ≤ x.frame.meter.limit := by
    rw [hmetered.limit_eq]
    exact hmetered.consumed_le
  exact {
    recordCost := Active.paysFirst_recordCost hwithin
    storage := by
      rintro key value rfl
      rw [← toNat_perByte_eq]
      exact Active.paysFirst_paying hwithin _ (fun _ => rfl) rfl
    setStorage := fun key value => by
      rw [← toNat_perByte_eq, ← htop]
      exact Active.paysFirst_setStorage hlinked htop hwithin key value
    log := fun topics data => by
      rw [← toNat_perByte_eq]
      exact Active.paysFirst_paying hwithin _ (fun _ => rfl) rfl
    hash := fun data => by
      rw [← toNat_perByte_eq]
      exact Active.paysFirst_paying hwithin _ (fun _ => rfl) rfl
    setCode := fun code => Active.constructsOnly_construct hlinked htop (.setCode code)
    setContractType := fun typeName =>
      Active.constructsOnly_construct hlinked htop (.setContractType typeName) }

/-- A transaction in which the first contract pays the second address. -/
def scantState : State Empty := .new .standard regretful (oneContract 10 0) 0 5000

/-- A call with 35 units of gas left when its code begins. -/
def scantCall : Message := ⟨2, 0, 1035, .externalCall 1 ⟨"pay", []⟩⟩

-- one byte of a log can still be paid, one byte of storage cannot, and the code may not be set
theorem charges_before_acting_of_scant :
    ∃ (program : Program Empty Outcome) (x : Active Empty),
      (Moment.running [] program x).Reached ∧ x.frame.layer = x.state.arena.top ∧
      x.frame.meter = ⟨1035, 1000⟩ ∧
      x.answer (fun m s => s.apply m) (.setStorage [1] [])
        = (.error (.fault .outOfGas),
            { x with frame := { x.frame with meter := ⟨1035, 1035⟩ } }) ∧
      (∃ consumed : Gas, consumed.toNat = 1031 ∧
        x.answer (fun m s => s.apply m) (.log [] [1])
          = (.ok (), ⟨{ x.frame with meter := ⟨1035, consumed⟩ },
              { x.state with logs := [⟨1, [], [1]⟩] }⟩)) ∧
      x.answer (fun m s => s.apply m) (.setCode [2]) = (.error (.fault .codeImmutable), x) := by
  have hstart : (Moment.idle scantState).Reached := .new _ _ _ _ _
  have hentered := hstart.entered (rfl : scantState.enter scantCall = _)
  have hcharges := charges_before_acting hentered rfl (fun m s => s.apply m)
  refine ⟨_, _, hentered, rfl, by decide +kernel, ?_, ?_, (hcharges.setCode [2]).refused rfl⟩
  · exact (hcharges.setStorage [1] []).refused (by decide +kernel)
  · obtain ⟨consumed, s, hconsumed, rfl, hanswer⟩ :=
      (hcharges.log [] [1]).paid (by decide +kernel)
    exact ⟨consumed, hconsumed.trans (by decide +kernel), hanswer⟩

end ContractExec
