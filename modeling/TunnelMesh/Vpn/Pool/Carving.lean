import TunnelMesh.Vpn.Pool

namespace TunnelMesh.Vpn

open IPNet List List.Pairwise

variable {subnet : IPNet}

theorem IPNet.contains_iff {net : IPNet} (hnet : net.masked = net) (ip : ℕ) :
    net.contains ip ↔ net.ip ≤ ip ∧ ip < net.ip + net.size := by
  have hpos : 0 < net.size := Nat.two_pow_pos _
  have hip : net.ip / net.size * net.size = net.ip := congrArg IPNet.ip hnet
  have hn : (net.ip / net.size + 1) * net.size = net.ip + net.size := by
    rw [Nat.add_mul, hip, Nat.one_mul]
  rw [IPNet.contains, decide_eq_true_iff, Nat.div_eq_iff hpos, ← hn, hip]
  omega

theorem IPNet.end_le {net : IPNet} (hnet : net.masked = net) : net.ip + net.size ≤ 2 ^ ipv4Bits := by
  have hpos : 0 < net.size := Nat.two_pow_pos _
  have hdvd : net.size ∣ 2 ^ ipv4Bits := Nat.pow_dvd_pow 2 (Nat.sub_le _ _)
  have hip : net.ip / net.size * net.size = net.ip := congrArg ip hnet
  have hlt : net.ip / net.size < 2 ^ ipv4Bits / net.size := by
    rw [Nat.div_lt_iff_lt_mul hpos, Nat.div_mul_cancel hdvd]
    exact net.ip_lt
  calc net.ip + net.size = (net.ip / net.size + 1) * net.size := by rw [Nat.add_mul, hip, Nat.one_mul]
    _ ≤ 2 ^ ipv4Bits / net.size * net.size := Nat.mul_le_mul_right _ hlt
    _ = 2 ^ ipv4Bits := Nat.div_mul_cancel hdvd

namespace Pool

variable (pool : Pool)

theorem hosts_pos : 0 < pool.hosts := Nat.two_pow_pos _

theorem four_le_hosts : 4 ≤ pool.hosts := by
  have hle := pool.size_le
  unfold maxNodeSubnetBits at hle
  calc 4 = 2 ^ 2 := rfl
    _ ≤ 2 ^ (ipv4Bits - pool.size) := Nat.pow_le_pow_right (by decide) (by unfold ipv4Bits; omega)

theorem block_le {i : ℕ} (hi : i < pool.count) : i * pool.hosts + pool.hosts ≤ pool.network.size := by
  calc i * pool.hosts + pool.hosts = (i + 1) * pool.hosts := by rw [Nat.add_mul, Nat.one_mul]
    _ ≤ pool.count * pool.hosts := Nat.mul_le_mul_right _ hi
    _ = pool.network.size := pool.size_network.symm

theorem addIPv4_carved (hi : i < pool.count) :
    addIPv4 pool.network.ip (i * pool.hosts) = pool.network.ip + i * pool.hosts := by
  have hblock := pool.block_le hi
  have hend := end_le pool.canonical
  have hpos := pool.hosts_pos
  exact Nat.mod_eq_of_lt (by omega)

theorem mem_subnets : subnet ∈ pool.subnets ↔
      subnet.ones = pool.size ∧ ∃ i < pool.count, subnet.ip = pool.network.ip + i * pool.hosts := by
  rw [subnets, mem_map]
  constructor
  · rintro ⟨i, hi, rfl⟩
    rw [mem_range] at hi
    exact ⟨rfl, i, hi, pool.addIPv4_carved hi⟩
  · rintro ⟨ho, i, hi, hip⟩
    refine ⟨i, mem_range.mpr hi, ?_⟩
    cases subnet with
    | mk ip ones ip_lt =>
      simp only [IPNet.mk.injEq]
      exact ⟨(pool.addIPv4_carved hi).trans hip.symm, ho.symm⟩

theorem size_of_ones (ho : subnet.ones = pool.size) : subnet.size = pool.hosts := by
  rw [IPNet.size, ho, hosts]

theorem masked_of_mem (hs : subnet ∈ pool.subnets) : subnet.masked = subnet := by
  obtain ⟨ho, i, _, hip⟩ := pool.mem_subnets.mp hs
  apply masked_of_dvd
  rw [pool.size_of_ones ho, hip]
  exact Nat.dvd_add pool.hosts_dvd_network (Nat.dvd_mul_left _ _)

theorem contains_subnet_iff (hs : subnet ∈ pool.subnets) (ip : ℕ) :
    subnet.contains ip ↔ subnet.ip ≤ ip ∧ ip < subnet.ip + pool.hosts := by
  rw [contains_iff (pool.masked_of_mem hs), pool.size_of_ones (pool.mem_subnets.mp hs).1]

theorem subnets_ascend : pool.subnets.Pairwise fun a b => a.ip + pool.hosts ≤ b.ip := by
  rw [subnets, pairwise_map]
  apply imp_of_mem ?_ pairwise_lt_range
  intro i j hi hj hij
  rw [mem_range] at hi hj
  simp only [pool.addIPv4_carved hi, pool.addIPv4_carved hj]
  have hn : (i + 1) * pool.hosts ≤ j * pool.hosts := Nat.mul_le_mul_right _ hij
  rw [Nat.add_mul, Nat.one_mul] at hn
  omega

theorem subnets_disjoint : pool.subnets.Pairwise fun a b =>
      a.ip < b.ip ∧ ∀ ip, ¬(a.contains ip ∧ b.contains ip) := by
  apply imp_of_mem ?_ pool.subnets_ascend
  intro a b ha hb hab
  have hpos := pool.hosts_pos
  refine ⟨by omega, ?_⟩
  intro ip
  rw [pool.contains_subnet_iff ha, pool.contains_subnet_iff hb]
  omega

theorem exists_subnet_of_contains {ip : ℕ} (hip : pool.network.contains ip) :
    ∃ subnet ∈ pool.subnets, subnet.ip = pool.network.ip + (ip - pool.network.ip) / pool.hosts * pool.hosts := by
  rw [contains_iff pool.canonical, pool.size_network] at hip
  have hi : (ip - pool.network.ip) / pool.hosts < pool.count := by
    rw [Nat.div_lt_iff_lt_mul pool.hosts_pos]
    omega
  refine ⟨⟨_, pool.size, addIPv4_lt _ _⟩, mem_map_of_mem (mem_range.mpr hi), ?_⟩
  exact pool.addIPv4_carved hi

theorem contains_network_iff (ip : ℕ) : pool.network.contains ip ↔ ∃ subnet ∈ pool.subnets, subnet.contains ip := by
  constructor
  · intro hip
    obtain ⟨subnet, hs, hb⟩ := pool.exists_subnet_of_contains hip
    refine ⟨subnet, hs, ?_⟩
    rw [contains_iff pool.canonical] at hip
    have hdiv := Nat.div_add_mod (ip - pool.network.ip) pool.hosts
    have hmod := Nat.mod_lt (ip - pool.network.ip) pool.hosts_pos
    rw [Nat.mul_comm] at hdiv
    rw [pool.contains_subnet_iff hs]
    omega
  · rintro ⟨subnet, hs, hip⟩
    obtain ⟨_, i, hi, hb⟩ := pool.mem_subnets.mp hs
    have hblock := pool.block_le hi
    rw [pool.contains_subnet_iff hs] at hip
    rw [contains_iff pool.canonical]
    omega

theorem mem_subnets_of_contains (hm : subnet.masked = subnet)
    (ho : subnet.ones = pool.size) (hip : pool.network.contains subnet.ip) : subnet ∈ pool.subnets := by
  obtain ⟨carved, hc, hb⟩ := pool.exists_subnet_of_contains hip
  have hip' : subnet.ip / pool.hosts * pool.hosts = subnet.ip := by
    rw [← pool.size_of_ones ho]
    exact congrArg ip hm
  have hdvd := Nat.dvd_sub (hip' ▸ Nat.dvd_mul_left _ _) pool.hosts_dvd_network
  rw [contains_iff pool.canonical] at hip
  rw [Nat.div_mul_cancel hdvd] at hb
  obtain ⟨_, i, hi, hcarvedIP⟩ := pool.mem_subnets.mp hc
  exact pool.mem_subnets.mpr ⟨ho, i, hi, by omega⟩

theorem nodeSubnet_eq_ok {network : IPNet} :
    pool.nodeSubnet subnet = .ok network ↔ subnet ∈ pool.subnets ∧ network = subnet := by
  constructor
  · intro hok
    simp only [nodeSubnet] at hok
    by_cases hc : subnet.ip = subnet.masked.ip
    swap
    · rw [if_pos hc] at hok; cases hok
    have hm : subnet.masked = subnet := by
      cases subnet with
      | mk ip ones ip_lt => exact IPNet.mk.injEq .. ▸ ⟨hc.symm, rfl⟩
    rw [hm] at hok
    rw [if_neg (not_not.mpr rfl)] at hok
    by_cases ho : subnet.ones = pool.size
    swap
    · rw [if_pos ho] at hok; cases hok
    rw [if_neg (not_not.mpr ho)] at hok
    cases hi : pool.network.contains subnet.ip with
    | false => rw [if_pos hi] at hok; cases hok
    | true =>
      rw [hi, if_neg (by decide)] at hok
      cases hok
      exact ⟨pool.mem_subnets_of_contains hm ho hi, rfl⟩
  · rintro ⟨hs, rfl⟩
    have hm := pool.masked_of_mem hs
    have hi : pool.network.contains network.ip := by
      rw [pool.contains_network_iff]
      exact ⟨network, hs, by simp [IPNet.contains]⟩
    simp [nodeSubnet, hm, (pool.mem_subnets.mp hs).1, hi]

end Pool

end TunnelMesh.Vpn
