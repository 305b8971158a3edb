import Mathlib.Order.Bounds.Basic
import TunnelMesh.Vpn.Pool.Carving

namespace TunnelMesh.Vpn

open List

namespace Pool

def validatedSubnet (pool : Pool) : Option IPNet → Except Error IPNet
  | none => .error (poolInvalid "subnet is required")
  | some subnet => pool.nodeSubnet subnet

def nodeAddress (pool : Pool) (subnet : Option IPNet) : Except Error ℕ := do
  let normalized ← pool.validatedSubnet subnet
  return addIPv4 normalized.ip 1

def occupied (taken : Option (ℕ → Bool)) (ip : ℕ) : Bool :=
  match taken with
  | none => false
  | some taken => taken ip

def allocateAddress (pool : Pool) (subnet : Option IPNet) (taken : Option (ℕ → Bool)) : Except Error ℕ := do
  let normalized ← pool.validatedSubnet subnet
  -- The offsets of the loop are 2, …, hosts - 2.
  match (range' 2 (pool.lastOffset - 1)).find? fun offset => !occupied taken (addIPv4 normalized.ip offset) with
  | some offset => .ok (addIPv4 normalized.ip offset)
  | none => .error (noFreeAddress normalized)

-- The given number of allocations one after another, each with the addresses
-- of those before it taken.
def issue (pool : Pool) (subnet : IPNet) : ℕ → Except Error (List ℕ)
  | 0 => .ok []
  | n + 1 => do
      let issued ← pool.issue subnet n
      let ip ← pool.allocateAddress (some subnet) (some fun ip => decide (ip ∈ issued))
      return ip :: issued

end Pool

-- The mask of a parsed IPv4 network has 32 bits, so only its length is checked.
def vpnSubnetCapacity (ipPool : IPNet) (nodeSubnetSize : ℤ) (subnet : IPNet) : Option ℕ :=
  match parsePool ipPool nodeSubnetSize with
  | .error _ => none
  | .ok pool =>
    match pool.nodeSubnet subnet with
    | .error _ => none
    | .ok nodeSubnet =>
      if nodeSubnet.ones < 2 then none
      else if nodeSubnet.size < 4 then none
      else some (nodeSubnet.size - 3)

def IPNet.broadcast (net : IPNet) : ℕ := net.ip + (net.size - 1)

namespace Pool

variable (pool : Pool)

structure Available (subnet : IPNet) (taken : Option (ℕ → Bool)) (ip : ℕ) : Prop where
  inside : subnet.contains ip
  notNetwork : ip ≠ subnet.ip
  notBroadcast : ip ≠ subnet.broadcast
  notNode : pool.nodeAddress (some subnet) ≠ .ok ip
  free : occupied taken ip = false

variable {pool} {subnet : IPNet} {taken : Option (ℕ → Bool)}

section

variable (hsubnet : subnet ∈ pool.subnets)

include hsubnet

theorem validatedSubnet_of_mem : pool.validatedSubnet (some subnet) = .ok subnet :=
  pool.nodeSubnet_eq_ok.mpr ⟨hsubnet, rfl⟩

theorem addIPv4_subnet (hoffset : offset < pool.hosts) : addIPv4 subnet.ip offset = subnet.ip + offset := by
  have hend := IPNet.end_le (pool.masked_of_mem hsubnet)
  rw [pool.size_of_ones (pool.mem_subnets.mp hsubnet).1] at hend
  exact Nat.mod_eq_of_lt (by omega)

theorem nodeAddress_of_mem : pool.nodeAddress (some subnet) = .ok (subnet.ip + 1) := by
  have hhosts := pool.four_le_hosts
  rw [nodeAddress, validatedSubnet_of_mem hsubnet, ← addIPv4_subnet hsubnet (show 1 < pool.hosts by omega)]
  rfl

theorem available_iff (ip : ℕ) : pool.Available subnet taken ip ↔
      ∃ offset, 2 ≤ offset ∧ offset ≤ pool.lastOffset ∧ ip = subnet.ip + offset ∧ occupied taken ip = false := by
  have hbroadcast : subnet.broadcast = subnet.ip + (pool.hosts - 1) := by
    rw [IPNet.broadcast, pool.size_of_ones (pool.mem_subnets.mp hsubnet).1]
  constructor
  · intro h
    have hinside := (pool.contains_subnet_iff hsubnet ip).mp h.inside
    have hnetwork := h.notNetwork
    have hl := h.notBroadcast
    have hn : ip ≠ subnet.ip + 1 := by rintro rfl; exact h.notNode (nodeAddress_of_mem hsubnet)
    refine ⟨ip - subnet.ip, by omega, ?_, by omega, h.free⟩
    unfold lastOffset
    omega
  · rintro ⟨offset, hfirst, hl, rfl, hf⟩
    unfold lastOffset at hl
    refine ⟨(pool.contains_subnet_iff hsubnet _).mpr (by omega), by omega, ?_, ?_, hf⟩
    · omega
    · rw [nodeAddress_of_mem hsubnet]
      intro hn
      have hip := Except.ok.inj hn
      omega

theorem allocateAddress_eq : pool.allocateAddress (some subnet) taken =
      match (range' 2 (pool.lastOffset - 1)).find? fun offset =>
          !occupied taken (addIPv4 subnet.ip offset) with
      | some offset => .ok (addIPv4 subnet.ip offset)
      | none => .error (noFreeAddress subnet) := by
  rw [allocateAddress, validatedSubnet_of_mem hsubnet]
  rfl

theorem not_available_of_find_none (hfind : ((range' 2 (pool.lastOffset - 1)).find? fun offset =>
      !occupied taken (addIPv4 subnet.ip offset)) = none) (ip : ℕ) : ¬pool.Available subnet taken ip := by
  rw [available_iff hsubnet]
  rintro ⟨offset, hf, hl, rfl, hfree⟩
  have ht := find?_range'_eq_none.mp hfind offset hf (by omega)
  unfold lastOffset at hl
  rw [addIPv4_subnet hsubnet (by omega), hfree] at ht
  cases ht

theorem isLeast_of_find_some (hfind : ((range' 2 (pool.lastOffset - 1)).find? fun offset =>
      !occupied taken (addIPv4 subnet.ip offset)) = some offset) :
    IsLeast {ip | pool.Available subnet taken ip} (addIPv4 subnet.ip offset) := by
  obtain ⟨hfree, hmem, hb⟩ := find?_range'_eq_some.mp hfind
  rw [mem_range'_1] at hmem
  have hl : offset ≤ pool.lastOffset := by omega
  have hh : offset < pool.hosts := by unfold lastOffset at hl; omega
  have hadd := addIPv4_subnet hsubnet hh
  refine ⟨(available_iff hsubnet _).mpr ⟨offset, hmem.1, hl, hadd, by simpa using hfree⟩, ?_⟩
  intro ip hip
  obtain ⟨other, hf, _, rfl, ho⟩ := (available_iff hsubnet ip).mp hip
  by_contra hlt
  have ht := hb other hf (by omega)
  rw [addIPv4_subnet hsubnet (by omega), ho] at ht
  cases ht

theorem allocateAddress_eq_ok (ip : ℕ) :
    pool.allocateAddress (some subnet) taken = .ok ip ↔ IsLeast {ip | pool.Available subnet taken ip} ip := by
  rw [allocateAddress_eq hsubnet]
  cases hf : (range' 2 (pool.lastOffset - 1)).find? fun offset =>
      !occupied taken (addIPv4 subnet.ip offset) with
  | none =>
    constructor
    · intro hok; cases hok
    · intro hl; exact absurd hl.1 (not_available_of_find_none hsubnet hf ip)
  | some offset =>
    have hl := isLeast_of_find_some hsubnet hf
    constructor
    · intro hok
      cases hok
      exact hl
    · intro hip; exact congrArg Except.ok (hl.unique hip)

theorem allocateAddress_eq_error (e : Error) : pool.allocateAddress (some subnet) taken = .error e ↔
      (¬∃ ip, pool.Available subnet taken ip) ∧ e = noFreeAddress subnet := by
  rw [allocateAddress_eq hsubnet]
  cases hf : (range' 2 (pool.lastOffset - 1)).find? fun offset =>
      !occupied taken (addIPv4 subnet.ip offset) with
  | none =>
    constructor
    · intro he
      cases he
      exact ⟨fun ⟨ip, hip⟩ => not_available_of_find_none hsubnet hf ip hip, rfl⟩
    · rintro ⟨_, rfl⟩; rfl
  | some offset =>
    constructor
    · intro he; cases he
    · rintro ⟨hn, _⟩; exact absurd ⟨_, (isLeast_of_find_some hsubnet hf).1⟩ hn

end

theorem issue_succ (hi : pool.issue subnet n = .ok issued) : pool.issue subnet (n + 1) =
      (pool.allocateAddress (some subnet) (some fun ip => decide (ip ∈ issued))).map (· :: issued) := by
  rw [issue, hi]
  rfl

theorem issue_of_le (hsubnet : subnet ∈ pool.subnets) (hn : n ≤ pool.hosts - 3) :
    pool.issue subnet n = .ok (range' (subnet.ip + 2) n).reverse := by
  induction n with
  | zero => rfl
  | succ n ih =>
    have hl : n + 2 ≤ pool.lastOffset := by unfold lastOffset; omega
    have hnext : pool.allocateAddress (some subnet)
        (some fun ip => decide (ip ∈ (range' (subnet.ip + 2) n).reverse)) =
        .ok (subnet.ip + 2 + n) := by
      rw [allocateAddress_eq_ok hsubnet]
      refine ⟨(available_iff hsubnet _).mpr ⟨n + 2, by omega, hl, by omega, ?_⟩, ?_⟩
      · simp [occupied]
      · intro ip hip
        obtain ⟨offset, hfirst, _, rfl, hf⟩ := (available_iff hsubnet ip).mp hip
        simp only [occupied, mem_reverse, mem_range'_1, decide_eq_false_iff_not] at hf
        omega
    rw [issue_succ (ih (by omega)), hnext, range'_concat, reverse_append, Nat.one_mul]
    rfl

theorem issue_full (hsubnet : subnet ∈ pool.subnets) : ∃ e, pool.issue subnet (pool.hosts - 3 + 1) = .error e := by
  refine ⟨noFreeAddress subnet, ?_⟩
  have he : pool.allocateAddress (some subnet)
      (some fun ip => decide (ip ∈ (range' (subnet.ip + 2) (pool.hosts - 3)).reverse)) =
      .error (noFreeAddress subnet) := by
    rw [allocateAddress_eq_error hsubnet]
    refine ⟨?_, rfl⟩
    rintro ⟨ip, hip⟩
    obtain ⟨offset, hfirst, hl, rfl, hf⟩ := (available_iff hsubnet ip).mp hip
    unfold lastOffset at hl
    simp only [occupied, mem_reverse, mem_range'_1, decide_eq_false_iff_not] at hf
    omega
  rw [issue_succ (issue_of_le hsubnet le_rfl), he]
  rfl

theorem issue_of_lt (hsubnet : subnet ∈ pool.subnets) (hn : pool.hosts - 3 < n) :
    ∃ e, pool.issue subnet n = .error e := by
  induction n, Nat.succ_le_of_lt hn using Nat.le_induction with
  | base => exact issue_full hsubnet
  | succ n hle ih => obtain ⟨e, he⟩ := ih (by omega); exact ⟨e, by rw [issue, he]; rfl⟩

def Issuable (pool : Pool) (subnet : IPNet) (n : ℕ) : Prop :=
  ∃ issued, pool.issue subnet n = .ok issued ∧ issued.Nodup ∧ issued.length = n

theorem isGreatest_issuable (hsubnet : subnet ∈ pool.subnets) :
    IsGreatest {n | pool.Issuable subnet n} (pool.hosts - 3) := by
  refine ⟨⟨_, issue_of_le hsubnet le_rfl, ?_, ?_⟩, ?_⟩
  · exact pairwise_reverse.mpr (List.Pairwise.imp Ne.symm nodup_range')
  · rw [length_reverse, length_range']
  · rintro n ⟨issued, hi, _⟩
    by_contra hlt
    obtain ⟨e, he⟩ := issue_of_lt hsubnet (Nat.lt_of_not_le hlt)
    rw [hi] at he
    cases he

theorem ones_pos_of_parsePool {size : ℤ} (hp : parsePool cidr size = .ok pool) : 0 < pool.network.ones := by
  have hs : isDangerousAddress pool.network.ip = false := by
    simp only [parsePool] at hp
    split_ifs at hp with _ _ _ _ hd
    cases hp
    exact Bool.eq_false_iff.mpr hd
  by_contra hzero
  have ho : pool.network.ones = 0 := by omega
  have hip : pool.network.ip = 0 := by
    have hm : pool.network.ip / pool.network.size * pool.network.size = pool.network.ip :=
      congrArg IPNet.ip pool.canonical
    rw [IPNet.size, ho, Nat.sub_zero, Nat.div_eq_of_lt pool.network.ip_lt, Nat.zero_mul] at hm
    exact hm.symm
  rw [hip] at hs
  exact absurd hs (by decide)

theorem vpnSubnetCapacity_eq {size : ℤ} (hp : parsePool cidr size = .ok pool)
    (hsubnet : subnet ∈ pool.subnets) : vpnSubnetCapacity cidr size subnet = some (pool.hosts - 3) := by
  have ho := (pool.mem_subnets.mp hsubnet).1
  have hwide := ones_pos_of_parsePool hp
  have hlt := pool.ones_lt
  simp only [vpnSubnetCapacity, hp, pool.nodeSubnet_eq_ok.mpr ⟨hsubnet, rfl⟩, ho, pool.size_of_ones ho]
  rw [if_neg (by omega), if_neg (Nat.not_lt.mpr pool.four_le_hosts)]

theorem vpnSubnetCapacity_eq_some {size : ℤ} (hp : parsePool cidr size = .ok pool)
    (subnet : IPNet) (capacity : ℕ) : vpnSubnetCapacity cidr size subnet = some capacity ↔
      subnet ∈ pool.subnets ∧ IsGreatest {n | pool.Issuable subnet n} capacity := by
  by_cases hsubnet : subnet ∈ pool.subnets
  · rw [vpnSubnetCapacity_eq hp hsubnet, Option.some.injEq]
    constructor
    · rintro rfl; exact ⟨hsubnet, isGreatest_issuable hsubnet⟩
    · rintro ⟨_, hc⟩; exact (isGreatest_issuable hsubnet).unique hc
  · have hr : vpnSubnetCapacity cidr size subnet = none := by
      simp only [vpnSubnetCapacity, hp]
      cases hn : pool.nodeSubnet subnet with
      | error e => rfl
      | ok network => exact absurd (pool.nodeSubnet_eq_ok.mp hn).1 hsubnet
    simp [hr, hsubnet]

-- The subnets of a pool are its blocks in ascending order, and every address
-- of the pool is in one of them.
structure Carved (pool : Pool) : Prop where
  noWrap : ∀ i < pool.count, addIPv4 pool.network.ip (i * pool.hosts) = pool.network.ip + i * pool.hosts
  ascending : pool.subnets.Pairwise fun a b => a.ip < b.ip ∧ ∀ ip, ¬(a.contains ip ∧ b.contains ip)
  covers : ∀ ip, pool.network.contains ip ↔ ∃ subnet ∈ pool.subnets, subnet.contains ip

theorem pool_carved_and_allocated {cidr : IPNet} {size : ℤ} {pool : Pool} (hpool : parsePool cidr size = .ok pool) :
    pool.Carved ∧ (∀ subnet network, pool.nodeSubnet subnet = .ok network ↔ subnet ∈ pool.subnets ∧ network = subnet) ∧
      (∀ subnet ∈ pool.subnets, ∀ taken ip, pool.allocateAddress (some subnet) taken = .ok ip ↔
        IsLeast {ip | pool.Available subnet taken ip} ip) ∧
      (∀ subnet ∈ pool.subnets, ∀ taken e, pool.allocateAddress (some subnet) taken = .error e ↔
        (¬∃ ip, pool.Available subnet taken ip) ∧ e = noFreeAddress subnet) ∧
      ∀ subnet capacity, vpnSubnetCapacity cidr size subnet = some capacity ↔
        subnet ∈ pool.subnets ∧ IsGreatest {n | pool.Issuable subnet n} capacity := by
  refine ⟨⟨fun i hi => pool.addIPv4_carved hi, pool.subnets_disjoint, pool.contains_network_iff⟩, ?_, ?_, ?_, ?_⟩
  · intro subnet network; exact pool.nodeSubnet_eq_ok
  · intro subnet hsubnet taken ip; exact allocateAddress_eq_ok hsubnet ip
  · intro subnet hsubnet taken e; exact allocateAddress_eq_error hsubnet e
  · exact vpnSubnetCapacity_eq_some hpool

theorem pool_carved_and_allocated_slash16 : ∃ pool, parsePool ⟨10 * 2 ^ 24 + 64 * 2 ^ 16, 16, by decide⟩ 24 = .ok pool ∧
      IsGreatest {n | pool.Issuable ⟨10 * 2 ^ 24 + 64 * 2 ^ 16, 24, by decide⟩ n} 253 := by
  have hpool : parsePool ⟨10 * 2 ^ 24 + 64 * 2 ^ 16, 16, by decide⟩ 24 = .ok _ := rfl
  obtain ⟨_, _, _, _, hcapacity⟩ := pool_carved_and_allocated hpool
  exact ⟨_, hpool, ((hcapacity _ 253).mp (by decide +kernel)).2⟩

end Pool

end TunnelMesh.Vpn
