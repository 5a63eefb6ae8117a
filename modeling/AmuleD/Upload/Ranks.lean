import AmuleD.Upload.Queue

open sorting

namespace amuled.upload

section Recompute

@[simp] theorem refresh_credit_key (credits : Credits) (client : UploadClient) :
    (refresh_credit credits client).key = client.key := by
  unfold refresh_credit
  split <;> rfl

@[simp] theorem refresh_credit_enqueued_at (credits : Credits) (client : UploadClient) :
    (refresh_credit credits client).enqueued_at = client.enqueued_at := by
  unfold refresh_credit
  split <;> rfl

@[simp] theorem with_rank_key (client : UploadClient) (rank : Nat) :
    (client.with_rank rank).key = client.key := rfl

@[simp] theorem map_key_refresh (credits : Credits) (clients : List UploadClient) :
    (clients.map (refresh_credit credits)).map UploadClient.key
      = clients.map UploadClient.key := by
  rw [List.map_map]
  exact List.map_congr_left fun client _ => refresh_credit_key credits client

@[simp] theorem map_key_assign_ranks (clients : List UploadClient) :
    (assign_ranks clients).map UploadClient.key = clients.map UploadClient.key := by
  rw [assign_ranks, List.map_map]
  rfl

@[simp] theorem length_assign_ranks (clients : List UploadClient) :
    (assign_ranks clients).length = clients.length := List.length_map _

/-- The clients in the order of `_recompute` have the ranks from one on. -/
def Ranked (clients : List UploadClient) : Prop :=
  (sorted UploadClient.rank_key clients).map UploadClient.rank = List.range' 1 clients.length

theorem ranked_assign_ranks {clients : List UploadClient}
    (hkeys : (clients.map UploadClient.key).Nodup) : Ranked (assign_ranks clients) := by
  have hordered : (sorted UploadClient.rank_key clients).Nodup :=
    (sorted_perm _ clients).nodup_iff.mpr hkeys.of_map
  have hpositions := map_idxOf_self hordered
  rw [length_sorted] at hpositions
  rw [Ranked, length_assign_ranks, assign_ranks, sorted_map, List.map_map]
  have hsplit : List.range' 1 clients.length = (List.range clients.length).map (· + 1) := by
    rw [List.range'_eq_map_range]
    exact List.map_congr_left fun i _ => Nat.add_comm 1 i
  rw [hsplit, ← hpositions, List.map_map]
  rfl

theorem Ranked.perm {clients : List UploadClient} (hranked : Ranked clients) :
    (clients.map UploadClient.rank).Perm (List.range' 1 clients.length) :=
  hranked ▸ ((sorted_perm UploadClient.rank_key clients).map UploadClient.rank).symm

/-- No client has a greater bonus than one of the same priority that arrived
before it. -/
def InArrivalOrder (clients : List UploadClient) : Prop :=
  clients.Pairwise fun a b =>
    a.file_priority = b.file_priority → b.credit_bonus ≤ a.credit_bonus

instance (clients : List UploadClient) : Decidable (InArrivalOrder clients) :=
  inferInstanceAs (Decidable (List.Pairwise _ _))

theorem arrival_key_le_iff {a b : UploadClient} (htime : a.enqueued_at ≤ b.enqueued_at) :
    a.arrival_key ≤ b.arrival_key ↔ b.file_priority ≤ a.file_priority := by
  simp only [UploadClient.arrival_key, Prod.Lex.toLex_le_toLex, neg_lt_neg_iff, neg_inj, htime,
    and_true]
  omega

theorem rank_key_le_iff {a b : UploadClient} (htime : a.enqueued_at ≤ b.enqueued_at) :
    a.rank_key ≤ b.rank_key ↔ b.file_priority < a.file_priority ∨
      a.file_priority = b.file_priority ∧ b.credit_bonus ≤ a.credit_bonus := by
  simp only [UploadClient.rank_key, Prod.Lex.toLex_le_toLex, neg_lt_neg_iff, neg_inj, htime,
    and_true, OrderDual.toDual_lt_toDual, EmbeddingLike.apply_eq_iff_eq]
  rw [le_iff_lt_or_eq, @eq_comm _ b.credit_bonus]

/-- The two orders agree on a client and one that arrived after it unless the
later one has the same priority and a greater bonus. -/
theorem keys_agree_iff {a b : UploadClient} (htime : a.enqueued_at ≤ b.enqueued_at) :
    (a.arrival_key ≤ b.arrival_key ↔ a.rank_key ≤ b.rank_key) ↔
      (a.file_priority = b.file_priority → b.credit_bonus ≤ a.credit_bonus) := by
  rw [arrival_key_le_iff htime, rank_key_le_iff htime]
  constructor
  · intro hagree hpriority
    rcases hagree.mp hpriority.ge with hless | hsame
    · omega
    · exact hsame.2
  · intro hbonus
    constructor
    · intro hle
      rcases hle.lt_or_eq with hless | hsame
      · exact .inl hless
      · exact .inr ⟨hsame.symm, hbonus hsame.symm⟩
    · rintro (hless | hsame)
      · exact hless.le
      · exact hsame.1.ge

/-- Clients in order of arrival are listed by rank exactly when no bonus exceeds
an earlier one of the same priority. -/
theorem listing_iff {clients : List UploadClient} (hranked : Ranked clients)
    (harrivals : clients.Pairwise fun a b => a.enqueued_at ≤ b.enqueued_at) :
    (sorted UploadClient.arrival_key clients).map UploadClient.rank
      = List.range' 1 clients.length ↔ InArrivalOrder clients := by
  have horders : sorted UploadClient.arrival_key clients = sorted UploadClient.rank_key clients ↔
      InArrivalOrder clients := by
    rw [sorted_eq_iff]
    constructor
    · intro hagree
      exact (hagree.and harrivals).imp fun h => (keys_agree_iff h.2).mp h.1
    · intro horder
      exact (horder.and harrivals).imp fun h => (keys_agree_iff h.2).mpr h.1
  rw [← horders]
  constructor
  · intro hlisting
    have hnodup : (clients.map UploadClient.rank).Nodup :=
      hranked.perm.nodup_iff.mpr List.nodup_range'
    apply eq_of_map_eq (List.inj_on_of_nodup_map hnodup) (sorted_perm _ clients).subset
      (sorted_perm _ clients).subset
    exact hlisting.trans hranked.symm
  · intro hsame
    rw [hsame]
    exact hranked

end Recompute

end amuled.upload
