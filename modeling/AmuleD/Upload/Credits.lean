import AmuleD.Dict
import AmuleD.Download.Queue
import AmuleD.Rounding.Binary
import AmuleD.Upload.Ranks

open amuled.download (fromhex_ok)
open rounding sorting

namespace amuled.upload

/-- The byte counts of one row of `client_credits`: what was served to the client, and what came from it. -/
structure Credit where
  uploaded : Nat
  downloaded : Nat
  deriving DecidableEq

/-- The credit ledger under the normalized user hash. -/
abbrev Ledger := Dict String Credit

/-- `_normalize_user_hash`. -/
def normalize_user_hash (user_hash : String) : Except Exc String :=
  let normalized := (strip user_hash.toList).map Char.toLower
  if normalized.length ≠ 32 then throw (.ValueError "user hash must contain 32 hexadecimal digits")
  else if fromhex_ok normalized then pure (String.ofList normalized)
  else throw (.ValueError "non-hexadecimal number found in fromhex() arg")

/-- The largest value of a `BIGINT` column. -/
def BIGINT_MAX : Nat := 2 ^ 63 - 1

/-- The upsert of `record_traffic`; a sum that its column cannot hold is refused. -/
def accumulate (row : Option Credit) (uploaded downloaded : Nat) : Except Exc Credit :=
  let row := row.getD ⟨0, 0⟩
  if row.uploaded + uploaded ≤ BIGINT_MAX ∧ row.downloaded + downloaded ≤ BIGINT_MAX then
    pure ⟨row.uploaded + uploaded, row.downloaded + downloaded⟩
  else throw .DatabaseError

def record_traffic (ledger : Ledger) (user_hash : String) (uploaded downloaded : Int) : Except Exc Ledger := do
  if uploaded < 0 ∨ downloaded < 0 then throw (.ValueError "uploaded/downloaded must be non-negative")
  let normalized ← normalize_user_hash user_hash
  let row ← accumulate (ledger.get normalized) uploaded.toNat downloaded.toNat
  pure (ledger.set normalized row)

def get_credits (ledger : Ledger) (user_hash : String) : Except Exc (Option Credit) := do
  let normalized ← normalize_user_hash user_hash
  pure (ledger.get normalized)

/-- One call of `record_traffic`. -/
structure Traffic where
  user_hash : String
  uploaded : Int
  downloaded : Int

/-- The call that `_record_uploaded` makes for the bytes an upload session has served. -/
def record_uploaded (user_hash_hex : String) (uploaded : Int) : Traffic := ⟨user_hash_hex, uploaded, 0⟩

/-- The call that `_record_downloaded` makes for the bytes a download client has received. -/
def record_downloaded (user_hash_hex : String) (downloaded : Int) : Traffic := ⟨user_hash_hex, 0, downloaded⟩

/-- A call that raises leaves the ledger as it is. -/
def recorded_call (ledger : Ledger) (traffic : Traffic) : Ledger :=
  match record_traffic ledger traffic.user_hash traffic.uploaded traffic.downloaded with
  | .ok ledger' => ledger'
  | .error _ => ledger

/-- The ledger that a sequence of calls makes of an empty one. -/
def ledger_of (calls : List Traffic) : Ledger := calls.foldl recorded_call .empty

/-- The double nearest to a number that no double underflows or overflows at. -/
def double (x : ℚ) : ℚ := nearest 52 x

/-- `1.0 + up / down` in doubles. -/
def one_plus_ratio (up down : ℚ) : ℚ := double (1 + double (up / down))

def credit_bonus (ledger : Ledger) (user_hash : String) : ℚ :=
  match get_credits ledger user_hash with
  | .error _ => 1
  | .ok none => 1
  | .ok (some row) =>
    let up := double row.uploaded
    let down := double row.downloaded
    if down ≤ 0 then (if 0 < up then 10 else 1) else min 10 (one_plus_ratio up down)

/-- The row of a client, or an empty one. -/
def credit (ledger : Ledger) (user_hash : String) : Credit :=
  match get_credits ledger user_hash with
  | .ok (some row) => row
  | _ => ⟨0, 0⟩

/-- The bytes a client took from us. -/
def taken (ledger : Ledger) (user_hash : String) : Nat := (credit ledger user_hash).uploaded

/-- The bytes a client gave us. -/
def given (ledger : Ledger) (user_hash : String) : Nat := (credit ledger user_hash).downloaded

theorem credit_of_ok {ledger : Ledger} {user_hash normalized : String}
    (hhash : normalize_user_hash user_hash = .ok normalized) :
    credit ledger user_hash = (ledger.get normalized).getD ⟨0, 0⟩ := by
  simp only [credit, get_credits, hhash, ok_bind, pure_eq_ok]
  cases ledger.get normalized <;> rfl

/-- A call adds its bytes to the counts of its client. -/
theorem credit_record_traffic {ledger ledger' : Ledger} {user_hash : String} {uploaded downloaded : Int}
    (hcall : record_traffic ledger user_hash uploaded downloaded = .ok ledger') :
    credit ledger' user_hash =
      ⟨taken ledger user_hash + uploaded.toNat, given ledger user_hash + downloaded.toNat⟩ := by
  unfold record_traffic at hcall
  by_cases hnegative : uploaded < 0 ∨ downloaded < 0
  · rw [if_pos hnegative] at hcall
    cases hcall
  rw [if_neg hnegative] at hcall
  obtain ⟨normalized, hhash, hcall⟩ := bind_eq_ok_iff.mp hcall
  obtain ⟨row, hrow, hset⟩ := bind_eq_ok_iff.mp hcall
  cases hset
  simp only [accumulate] at hrow
  split at hrow
  · cases hrow
    rw [taken, given, credit_of_ok hhash, credit_of_ok hhash, Dict.get_set_self, Option.getD_some]
  · cases hrow

/-- The bonus by the two counts. -/
def bonus_of (credit : Credit) : ℚ :=
  if credit.downloaded = 0 then (if 0 < credit.uploaded then 10 else 1)
  else min 10 (one_plus_ratio (double credit.uploaded) (double credit.downloaded))

theorem double_pos_iff {count : Nat} : 0 < double count ↔ 0 < count := by
  constructor
  · intro hpos
    rcases Nat.eq_zero_or_pos count with rfl | hcount
    · rw [double, Nat.cast_zero, nearest_zero] at hpos
      exact absurd hpos (lt_irrefl 0)
    · exact hcount
  · intro hpos
    exact nearest_pos 52 (Nat.cast_pos.mpr hpos)

theorem double_mono {x y : ℚ} (hx : 0 ≤ x) (hle : x ≤ y) : double x ≤ double y := nearest_mono 52 hx hle

theorem double_nonneg {x : ℚ} (hx : 0 ≤ x) : 0 ≤ double x := by
  have hmono := double_mono le_rfl hx
  rwa [double, nearest_zero] at hmono

theorem credit_bonus_eq (ledger : Ledger) (user_hash : String) :
    credit_bonus ledger user_hash = bonus_of (credit ledger user_hash) := by
  simp only [credit_bonus, credit]
  cases get_credits ledger user_hash with
  | error e => rfl
  | ok row =>
    cases row with
    | none => rfl
    | some row =>
      have hup : 0 < double row.uploaded ↔ 0 < row.uploaded := double_pos_iff
      have hdown : double row.downloaded ≤ 0 ↔ row.downloaded = 0 := by
        rw [← not_lt, double_pos_iff, Nat.pos_iff_ne_zero, not_not]
      simp only [bonus_of, hup, hdown]

/-- The bonus grows with what a client took and falls with what it gave. -/
theorem one_plus_ratio_mono {up down up' down' : ℚ} (hup : 0 ≤ up) (hmore : up ≤ up') (hdown : 0 < down')
    (hless : down' ≤ down) : one_plus_ratio up down ≤ one_plus_ratio up' down' := by
  have hquotient : up / down ≤ up' / down' := div_le_div₀ (hup.trans hmore) hmore hdown hless
  have hnonneg : 0 ≤ up / down := div_nonneg hup (hdown.le.trans hless)
  apply double_mono (add_nonneg zero_le_one (double_nonneg hnonneg))
  rw [add_le_add_iff_left]
  exact double_mono hnonneg hquotient

theorem one_plus_ratio_zero (down : ℚ) : one_plus_ratio 0 down = 1 := by
  have hone : nearest 52 ((1 : ℕ) : ℚ) = (1 : ℕ) := nearest_natCast 52 (by norm_num)
  rw [one_plus_ratio, zero_div, double, double, nearest_zero, add_zero]
  exact_mod_cast hone

theorem one_le_one_plus_ratio {up down : ℚ} (hup : 0 ≤ up) (hdown : 0 < down) : 1 ≤ one_plus_ratio up down := by
  rw [← one_plus_ratio_zero down]
  exact one_plus_ratio_mono le_rfl hup hdown le_rfl

/-- One client gave at least as much as another and took no more. -/
def Rewarded (giver taker : Credit) : Prop :=
  taker.downloaded ≤ giver.downloaded ∧ giver.uploaded ≤ taker.uploaded

/-- A client took so much more than it gave that its bonus is cut off. -/
def Capped (credit : Credit) : Prop :=
  0 < credit.uploaded ∧
    (credit.downloaded = 0 ∨ 10 ≤ one_plus_ratio (double credit.uploaded) (double credit.downloaded))

/-- One client took nothing, or the bonuses of both are cut off, or no double tells their ratios apart. -/
def Level (giver taker : Credit) : Prop :=
  taker.uploaded = 0 ∨ Capped giver ∧ Capped taker ∨ 0 < taker.downloaded ∧
    one_plus_ratio (double giver.uploaded) (double giver.downloaded) =
      one_plus_ratio (double taker.uploaded) (double taker.downloaded)

theorem one_le_bonus_of (credit : Credit) : 1 ≤ bonus_of credit := by
  rw [bonus_of]
  split_ifs with hdown hup
  · norm_num
  · exact le_rfl
  · have hpos : 0 < double credit.downloaded := double_pos_iff.mpr (Nat.pos_of_ne_zero hdown)
    exact le_min (by norm_num) (one_le_one_plus_ratio (double_nonneg (Nat.cast_nonneg _)) hpos)

theorem capped_iff (credit : Credit) : Capped credit ↔ 10 ≤ bonus_of credit := by
  rw [Capped, bonus_of]
  by_cases hdown : credit.downloaded = 0
  · by_cases hup : 0 < credit.uploaded
    · simp [hdown, hup]
    · simp only [hup, hdown, if_true, if_false, false_and, false_iff]
      norm_num
  · rw [if_neg hdown, le_min_iff]
    simp only [hdown, false_or, le_refl, true_and, and_iff_right_iff_imp]
    intro hten
    by_contra hnone
    have hzero : (credit.uploaded : ℚ) = 0 := by
      rw [Nat.cast_eq_zero]
      omega
    rw [hzero, double, nearest_zero, one_plus_ratio_zero] at hten
    norm_num at hten

/-- The client that gave more or took less has no greater bonus, so that it keeps up only where the two are
equal. -/
theorem bonus_le_iff {giver taker : Credit} (hmore : Rewarded giver taker) :
    bonus_of taker ≤ bonus_of giver ↔ Level giver taker := by
  obtain ⟨hgave, htook⟩ := hmore
  rw [Level, capped_iff, capped_iff]
  by_cases hnothing : taker.uploaded = 0
  · have hone : bonus_of taker = 1 := by
      rw [bonus_of, hnothing, Nat.cast_zero, double, nearest_zero, one_plus_ratio_zero]
      simp
    simp only [hnothing, true_or, iff_true, hone]
    exact one_le_bonus_of giver
  · have hsome : 0 < taker.uploaded := Nat.pos_of_ne_zero hnothing
    by_cases hfree : taker.downloaded = 0
    · have hten : bonus_of taker = 10 := by
        rw [bonus_of, if_pos hfree, if_pos hsome]
      simp [hnothing, hfree, hten]
    · have hgiver : giver.downloaded ≠ 0 := by omega
      have hpos : 0 < taker.downloaded := Nat.pos_of_ne_zero hfree
      have hratio : one_plus_ratio (double giver.uploaded) (double giver.downloaded) ≤
          one_plus_ratio (double taker.uploaded) (double taker.downloaded) := by
        apply one_plus_ratio_mono (double_nonneg (Nat.cast_nonneg _))
        · exact double_mono (Nat.cast_nonneg _) (Nat.cast_le.mpr htook)
        · exact double_pos_iff.mpr hpos
        · exact double_mono (Nat.cast_nonneg _) (Nat.cast_le.mpr hgave)
      simp only [bonus_of, hfree, hgiver, if_false, hnothing, false_or, hpos, true_and, le_min_iff, min_le_iff, le_refl,
        true_or]
      constructor
      · rintro (hten | hle)
        · exact .inl ⟨hten, hten.trans hratio⟩
        · exact .inr (le_antisymm hratio hle)
      · rintro (⟨hten, _⟩ | hsame)
        · exact .inl hten
        · exact .inr hsame.ge

/-- The callback that the kernel gives its queue. -/
def kernel_credits (ledger : Ledger) : Credits := fun key => some (credit_bonus ledger key.1 : ℚ)

/-- The rank of a client after `_recompute`. -/
def rank_after (ledger : Ledger) (queue : UploadQueue) (client : UploadClient) : Nat :=
  (queue.recompute (kernel_credits ledger)).rank_or_zero client.key

theorem find_key {clients : List UploadClient} (hkeys : (clients.map UploadClient.key).Nodup)
    {client : UploadClient} (hmem : client ∈ clients) :
    clients.find? (fun other => other.key = client.key) = some client := by
  cases hfind : clients.find? fun other => other.key = client.key with
  | none =>
    rw [List.find?_eq_none] at hfind
    exact absurd (hfind client hmem) (by simp)
  | some other =>
    have hkey : other.key = client.key := by simpa using List.find?_some hfind
    rw [List.inj_on_of_nodup_map hkeys (List.mem_of_find?_eq_some hfind) hmem hkey]

/-- A recomputed rank is a client's place among the clients with their new bonuses. -/
theorem rank_after_eq {queue : UploadQueue} (hkeys : (queue._waiting.map UploadClient.key).Nodup) (ledger : Ledger)
    {client : UploadClient} (hmem : client ∈ queue._waiting) :
    rank_after ledger queue client =
      (sorted UploadClient.rank_key (queue._waiting.map (refresh_credit (kernel_credits ledger)))).idxOf
        (refresh_credit (kernel_credits ledger) client) + 1 := by
  have hrefreshed : refresh_credit (kernel_credits ledger) client ∈
      queue._waiting.map (refresh_credit (kernel_credits ledger)) := List.mem_map_of_mem hmem
  have hranked := List.mem_map_of_mem
    (f := fun other : UploadClient => other.with_rank ((sorted UploadClient.rank_key
      (queue._waiting.map (refresh_credit (kernel_credits ledger)))).idxOf other + 1)) hrefreshed
  have hnodup : ((queue.recompute (kernel_credits ledger))._waiting.map UploadClient.key).Nodup := by
    rw [UploadQueue.recompute, map_key_assign_ranks, map_key_refresh]
    exact hkeys
  have hfind := find_key hnodup hranked
  rw [with_rank_key, refresh_credit_key] at hfind
  rw [rank_after, UploadQueue.rank_or_zero, UploadQueue.get_waiting, hfind]
  rfl

theorem credit_bonus_refresh (ledger : Ledger) (client : UploadClient) :
    (refresh_credit (kernel_credits ledger) client).credit_bonus = (credit_bonus ledger client.user_hash : ℚ) := by
  have hnonneg : (0 : WithTop ℚ) ≤ (credit_bonus ledger client.user_hash : ℚ) := by
    rw [credit_bonus_eq]
    exact_mod_cast zero_le_one.trans (one_le_bonus_of (credit ledger client.user_hash))
  exact max_eq_right hnonneg

theorem rank_key_refresh_le_iff {ledger : Ledger} {earlier later : UploadClient}
    (hpriority : earlier.file_priority = later.file_priority) (htime : earlier.enqueued_at ≤ later.enqueued_at) :
    (refresh_credit (kernel_credits ledger) earlier).rank_key ≤
        (refresh_credit (kernel_credits ledger) later).rank_key ↔
      credit_bonus ledger later.user_hash ≤ credit_bonus ledger earlier.user_hash := by
  have hsame : (refresh_credit (kernel_credits ledger) earlier).file_priority =
      (refresh_credit (kernel_credits ledger) later).file_priority := hpriority
  rw [rank_key_le_iff (by simpa using htime), credit_bonus_refresh, credit_bonus_refresh, WithTop.coe_le_coe]
  simp [hsame]

/-- Who gave more or took less is rewarded only where the bonuses are level. -/
theorem rewarded_iff_level (calls : List Traffic) {giver taker : String}
    (hmore : Rewarded (credit (ledger_of calls) giver) (credit (ledger_of calls) taker)) :
    (credit_bonus (ledger_of calls) taker ≤ credit_bonus (ledger_of calls) giver ∧
      ∀ (queue : UploadQueue) (earlier later : UploadClient), (queue._waiting.map UploadClient.key).Nodup →
        [earlier, later].Sublist queue._waiting → earlier.user_hash = giver → later.user_hash = taker →
        earlier.file_priority = later.file_priority → earlier.enqueued_at ≤ later.enqueued_at →
        rank_after (ledger_of calls) queue earlier < rank_after (ledger_of calls) queue later) ↔
    Level (credit (ledger_of calls) giver) (credit (ledger_of calls) taker) := by
  rw [← bonus_le_iff hmore, ← credit_bonus_eq, ← credit_bonus_eq]
  constructor
  · exact fun hrewarded => hrewarded.1
  · intro hbonus
    refine ⟨hbonus, ?_⟩
    rintro queue earlier later hkeys hpair rfl rfl hpriority htime
    rw [rank_after_eq hkeys _ (hpair.subset (by simp)), rank_after_eq hkeys _ (hpair.subset (by simp)),
      Nat.add_lt_add_iff_right]
    rw [idxOf_sorted_lt_iff _ (hpair.map _), rank_key_refresh_le_iff hpriority htime]
    · exact hbonus
    · rw [← map_key_refresh (kernel_credits (ledger_of calls))] at hkeys
      exact hkeys.of_map

/-- Two clients take the same from us, and one of them gives twice as much. -/
def sampleTraffic (served : Int) : List Traffic :=
  [record_uploaded "aaaaaaaaaaaaaaaaaaaaaaaaaaaaaaaa" served, record_downloaded "aaaaaaaaaaaaaaaaaaaaaaaaaaaaaaaa" 2,
    record_uploaded "bbbbbbbbbbbbbbbbbbbbbbbbbbbbbbbb" served, record_downloaded "bbbbbbbbbbbbbbbbbbbbbbbbbbbbbbbb" 1]

/-- The two clients wait for one file, and came at once. -/
def sampleWaiting (first : Bool) : UploadClient where
  user_hash := if first then "aaaaaaaaaaaaaaaaaaaaaaaaaaaaaaaa" else "bbbbbbbbbbbbbbbbbbbbbbbbbbbbbbbb"
  client_id := 1
  client_port := 4662
  nickname := ""
  requested_hash := "cccccccccccccccccccccccccccccccc"
  file_priority := 1
  credit_bonus := 1
  enqueued_at := 0
  rank := 0

theorem credit_sampleTraffic (served : Int) (hserved : served = 0 ∨ served = 2) :
    credit (ledger_of (sampleTraffic served)) (sampleWaiting true).user_hash = ⟨served.toNat, 2⟩ ∧
      credit (ledger_of (sampleTraffic served)) (sampleWaiting false).user_hash = ⟨served.toNat, 1⟩ := by
  rcases hserved with rfl | rfl <;> decide +kernel

/-- Where neither took anything the client that gave more has the better rank. -/
theorem rewarded_nothing_taken :
    rank_after (ledger_of (sampleTraffic 0)) ⟨1, 600, [sampleWaiting true, sampleWaiting false], []⟩ (sampleWaiting true) <
      rank_after (ledger_of (sampleTraffic 0)) ⟨1, 600, [sampleWaiting true, sampleWaiting false], []⟩
        (sampleWaiting false) := by
  obtain ⟨hfirst, hsecond⟩ := credit_sampleTraffic 0 (.inl rfl)
  have hmore : Rewarded (credit (ledger_of (sampleTraffic 0)) (sampleWaiting true).user_hash)
      (credit (ledger_of (sampleTraffic 0)) (sampleWaiting false).user_hash) := by
    rw [hfirst, hsecond]
    exact ⟨by simp only; omega, le_rfl⟩
  have hlevel : Level (credit (ledger_of (sampleTraffic 0)) (sampleWaiting true).user_hash)
      (credit (ledger_of (sampleTraffic 0)) (sampleWaiting false).user_hash) := by
    rw [hsecond]
    exact .inl rfl
  have hrewarded := (rewarded_iff_level (sampleTraffic 0) hmore).mpr hlevel
  exact hrewarded.2 _ _ _ (by decide +kernel) (List.Sublist.refl _) rfl rfl rfl le_rfl

/-- Where both took the same the client that gave twice as much has the smaller bonus and the worse rank. -/
theorem giver_ranks_behind :
    Rewarded (credit (ledger_of (sampleTraffic 2)) (sampleWaiting true).user_hash)
        (credit (ledger_of (sampleTraffic 2)) (sampleWaiting false).user_hash) ∧
      credit_bonus (ledger_of (sampleTraffic 2)) (sampleWaiting true).user_hash <
        credit_bonus (ledger_of (sampleTraffic 2)) (sampleWaiting false).user_hash ∧
      rank_after (ledger_of (sampleTraffic 2)) ⟨1, 600, [sampleWaiting true, sampleWaiting false], []⟩
        (sampleWaiting true) = 2 := by
  obtain ⟨hfirst, hsecond⟩ := credit_sampleTraffic 2 (.inr rfl)
  refine ⟨?_, ?_, by decide +kernel⟩
  · rw [hfirst, hsecond]
    exact ⟨by simp only; omega, le_rfl⟩
  · rw [credit_bonus_eq, credit_bonus_eq, hfirst, hsecond]
    decide +kernel

end amuled.upload
