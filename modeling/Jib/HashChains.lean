import Mathlib.Data.List.Nodup
import Mathlib.Data.List.Perm.Subperm
import Mathlib.Logic.Function.Basic

/-!
# Hash tables with chains

Each bucket has the first node of a chain, and each node leads to the next one.
Nodes are found along the chain of their bucket, go in at its head, and are
taken out by a change of the node before.  A table moves to other buckets one
node at a time.
-/

namespace HashChains

variable {Node Entry Bucket : Type}

/-- Follows a chain up to the first node that is found: the node before it, the
node, and what the node holds.  A node that cannot be read is a fault. -/
def search (read : Node → Option Entry) (next : Entry → Option Node)
    (found : Node → Entry → Bool) :
    Nat → Option Node → Option Node → Option (Option (Option Node × Node × Entry))
  | 0, _, _ => none
  | _ + 1, _, none => some none
  | fuel + 1, before, some node => do
      let entry ← read node
      if found node entry then return some (before, node, entry)
      search read next found fuel (some node) (next entry)

/-- What a loop finds it has read. -/
theorem read_of_search {read : Node → Option Entry} {next : Entry → Option Node}
    {found : Node → Entry → Bool} {fuel : Nat} {before start last : Option Node} {node : Node}
    {entry : Entry}
    (finds : search read next found fuel before start = some (some (last, node, entry))) :
    read node = some entry := by
  induction fuel generalizing before start with
  | zero => cases finds
  | succ fuel ih =>
      cases start with
      | none => cases Option.some_inj.mp finds
      | some first =>
          obtain ⟨held, reads, goesOn⟩ := Option.bind_eq_some_iff.mp finds
          split at goesOn
          · cases Option.some_inj.mp (Option.some_inj.mp goesOn)
            exact reads
          · exact ih goesOn

/-- A loop over a chain whose body says where the chain goes on. -/
def walk {State : Type} (body : Node → State → Option (Option Node × State)) :
    Nat → Option Node → State → Option State
  | 0, _, _ => none
  | _ + 1, none, state => some state
  | fuel + 1, some node, state => do
      let (next, state) ← body node state
      walk body fuel next state

/-- The nodes of a chain. -/
inductive Chain (read : Node → Option Entry) (next : Entry → Option Node) :
    Option Node → List Node → Prop
  | nil : Chain read next none []
  | cons {node : Node} {entry : Entry} {nodes : List Node} (reads : read node = some entry)
      (chain : Chain read next (next entry) nodes) : Chain read next (some node) (node :: nodes)

variable {read after : Node → Option Entry} {next : Entry → Option Node}
  {first : Option Node} {nodes : List Node}

namespace Chain

theorem eq_head? (chain : Chain read next first nodes) : first = nodes.head? := by
  cases chain <;> rfl

theorem exists_tail {node : Node} (chain : Chain read next first (node :: nodes)) :
    ∃ entry, first = some node ∧ read node = some entry ∧ Chain read next (next entry) nodes := by
  cases chain with
  | cons reads chain => exact ⟨_, rfl, reads, chain⟩

theorem exists_read (chain : Chain read next first nodes) :
    ∀ node ∈ nodes, ∃ entry, read node = some entry := by
  induction chain with
  | nil => simp
  | cons reads chain ih => exact List.forall_mem_cons.mpr ⟨⟨_, reads⟩, ih⟩

/-- A chain is kept where its nodes lead on as before. -/
theorem congr_entries (chain : Chain read next first nodes)
    (same : ∀ node ∈ nodes, ∀ entry, read node = some entry →
      ∃ changed, after node = some changed ∧ next changed = next entry) :
    Chain after next first nodes := by
  induction chain with
  | nil => exact .nil
  | @cons node entry nodes reads chain ih =>
      obtain ⟨changed, writes, leads⟩ := same node List.mem_cons_self entry reads
      refine .cons writes (leads ▸ ih fun other member => ?_)
      exact same other (List.mem_cons_of_mem node member)

theorem congr (chain : Chain read next first nodes)
    (same : ∀ node ∈ nodes, after node = read node) : Chain after next first nodes :=
  chain.congr_entries fun node member entry reads => ⟨entry, (same node member).trans reads, rfl⟩

theorem search_eq (chain : Chain read next first nodes) (found : Node → Entry → Bool)
    {fuel : Nat} (enough : nodes.length < fuel) (before : Option Node) :
    (search read next found fuel before first = some none ∧
      ∀ node ∈ nodes, ∀ entry, read node = some entry → found node entry = false) ∨
    ∃ earlier node entry later, nodes = earlier ++ node :: later ∧
      search read next found fuel before first =
        some (some (earlier.getLast?.or before, node, entry)) ∧
      read node = some entry ∧ found node entry = true := by
  induction chain generalizing fuel before with
  | nil =>
      obtain ⟨fuel, rfl⟩ := Nat.exists_eq_succ_of_ne_zero (Nat.ne_zero_of_lt enough)
      exact .inl ⟨rfl, by simp⟩
  | @cons node entry nodes reads chain ih =>
      obtain ⟨fuel, rfl⟩ := Nat.exists_eq_succ_of_ne_zero (Nat.ne_zero_of_lt enough)
      by_cases isFound : found node entry = true
      · exact .inr ⟨[], node, entry, nodes, rfl, by simp [search, reads, isFound], reads, isFound⟩
      have goesOn : search read next found (fuel + 1) before (some node) =
          search read next found fuel (some node) (next entry) := by
        simp [search, reads, isFound]
      rcases ih (Nat.succ_lt_succ_iff.mp enough) (some node) with
        ⟨ends, nowhere⟩ | ⟨earlier, other, held, later, split, finds, readsOther, isOther⟩
      · refine .inl ⟨goesOn.trans ends,
          List.forall_mem_cons.mpr ⟨fun held readsHeld => ?_, nowhere⟩⟩
        obtain rfl := Option.some_inj.mp (reads.symm.trans readsHeld)
        simpa using isFound
      · refine .inr ⟨node :: earlier, other, held, later, by rw [split, List.cons_append], ?_,
          readsOther, isOther⟩
        rw [goesOn, finds]
        cases earlier <;> simp [List.getLast?_cons]

/-- A chain without one of its nodes: the one before leads to the one after. -/
theorem unlink {earlier later : List Node} {before node : Node} {entry changed : Entry}
    (chain : Chain read next first (earlier ++ before :: node :: later))
    (nodup : (earlier ++ before :: node :: later).Nodup) (reads : read node = some entry)
    (writes : after before = some changed) (skips : next changed = next entry)
    (same : ∀ other, other ≠ before → other ≠ node → after other = read other) :
    Chain after next first (earlier ++ before :: later) := by
  induction earlier generalizing first with
  | nil =>
      obtain ⟨notBefore, notNode⟩ := List.nodup_cons.mp nodup
      obtain ⟨held, rfl, -, chain⟩ := chain.exists_tail
      obtain ⟨_, -, readsNode, chain⟩ := chain.exists_tail
      obtain rfl := Option.some_inj.mp (readsNode.symm.trans reads)
      refine .cons writes (skips ▸ chain.congr fun other member => same other ?_ ?_)
      · rintro rfl
        exact notBefore (List.mem_cons_of_mem node member)
      · rintro rfl
        exact (List.nodup_cons.mp notNode).1 member
  | cons other earlier ih =>
      obtain ⟨apart, rest⟩ := List.nodup_cons.mp nodup
      obtain ⟨held, rfl, readsOther, chain⟩ := chain.exists_tail
      refine .cons ((same other ?_ ?_).trans readsOther) (ih chain rest)
      · rintro rfl
        exact apart (by simp)
      · rintro rfl
        exact apart (by simp)

end Chain

/-! ## Tables -/

/-- Every member is in the chain of its bucket, and nothing else is. -/
structure Table (read : Node → Option Entry) (next : Entry → Option Node)
    (heads : Bucket → Option Node) (bucket : Entry → Bucket) (Member : Node → Prop) :
    Prop where
  reads : ∀ node, Member node → ∃ entry, read node = some entry
  chain : ∀ index, ∃ nodes, Chain read next (heads index) nodes ∧ nodes.Nodup ∧
    ∀ node, node ∈ nodes ↔ Member node ∧ ∃ entry, read node = some entry ∧ bucket entry = index

/-- How a table changes when a node is taken out of a chain. -/
inductive Unlinked (read : Node → Option Entry) (next : Entry → Option Node)
    (heads : Bucket → Option Node) (bucket : Entry → Bucket) (node : Node) (entry : Entry)
    (after : Node → Option Entry) (headsAfter : Bucket → Option Node) : Option Node → Prop
  | first (same : ∀ other, other ≠ node → after other = read other)
      (head : headsAfter (bucket entry) = next entry)
      (elsewhere : ∀ index, index ≠ bucket entry → headsAfter index = heads index) :
      Unlinked read next heads bucket node entry after headsAfter none
  | behind {before : Node} {held changed : Entry} (reads : read before = some held)
      (writes : after before = some changed) (skips : next changed = next entry)
      (stays : bucket changed = bucket held)
      (same : ∀ other, other ≠ before → other ≠ node → after other = read other)
      (elsewhere : ∀ index, headsAfter index = heads index) :
      Unlinked read next heads bucket node entry after headsAfter (some before)

namespace Table

variable {heads headsAfter : Bucket → Option Node} {bucket : Entry → Bucket}
  {Member : Node → Prop}

theorem congr_members {Other : Node → Prop} (table : Table read next heads bucket Member)
    (same : ∀ node, Other node ↔ Member node) : Table read next heads bucket Other := by
  obtain rfl : Other = Member := funext fun node => propext (same node)
  exact table

/-- A table is kept where its members lead on as before and stay in their buckets. -/
theorem congr_entries (table : Table read next heads bucket Member)
    (same : ∀ node, Member node → ∀ entry, read node = some entry → ∃ changed,
      after node = some changed ∧ next changed = next entry ∧ bucket changed = bucket entry)
    (sameHeads : ∀ index, headsAfter index = heads index) :
    Table after next headsAfter bucket Member where
  reads node member := by
    obtain ⟨entry, reads⟩ := table.reads node member
    obtain ⟨changed, writes, -⟩ := same node member entry reads
    exact ⟨changed, writes⟩
  chain index := by
    obtain ⟨nodes, chain, nodup, holds⟩ := table.chain index
    refine ⟨nodes, ?_, nodup, fun node => ?_⟩
    · rw [sameHeads]
      refine chain.congr_entries fun node member entry reads => ?_
      obtain ⟨changed, writes, leads, -⟩ := same node ((holds node).mp member).1 entry reads
      exact ⟨changed, writes, leads⟩
    · rw [holds node]
      refine and_congr_right fun member => ?_
      obtain ⟨entry, reads⟩ := table.reads node member
      obtain ⟨changed, writes, -, stays⟩ := same node member entry reads
      simp [reads, writes, stays]

theorem congr (table : Table read next heads bucket Member)
    (same : ∀ node, Member node → after node = read node)
    (sameHeads : ∀ index, headsAfter index = heads index) :
    Table after next headsAfter bucket Member :=
  table.congr_entries (fun node member entry reads =>
    ⟨entry, (same node member).trans reads, rfl, rfl⟩) sameHeads

theorem empty : Table read next (fun _ : Bucket => none) bucket fun _ => False where
  reads _ member := member.elim
  chain _ := ⟨[], .nil, List.nodup_nil, by simp⟩

section Search

variable {all : List Node} {fuel : Nat}

/-- A search in a bucket finds a member of the bucket, if there is one. -/
theorem search_eq (table : Table read next heads bucket Member)
    (within : ∀ node, Member node → node ∈ all) (enough : all.length < fuel)
    (found : Node → Entry → Bool) (index : Bucket) :
    (search read next found fuel none (heads index) = some none ∧
      ∀ node entry, Member node → read node = some entry → bucket entry = index →
        found node entry = false) ∨
    ∃ before node entry, search read next found fuel none (heads index) =
        some (some (before, node, entry)) ∧ Member node ∧ read node = some entry ∧
      bucket entry = index ∧ found node entry = true := by
  obtain ⟨nodes, chain, nodup, holds⟩ := table.chain index
  have short : nodes.length ≤ all.length :=
    (List.subperm_of_subset nodup fun node member =>
      within node ((holds node).mp member).1).length_le
  rcases chain.search_eq found (Nat.lt_of_le_of_lt short enough) none with
    ⟨ends, nowhere⟩ | ⟨earlier, node, entry, later, rfl, finds, reads, isFound⟩
  · refine .inl ⟨ends, fun node entry member reads inBucket => ?_⟩
    exact nowhere node ((holds node).mpr ⟨member, entry, reads, inBucket⟩) entry reads
  · obtain ⟨member, held, readsHeld, inBucket⟩ := (holds node).mp (by simp)
    obtain rfl := Option.some_inj.mp (reads.symm.trans readsHeld)
    exact .inr ⟨_, node, entry, finds, member, reads, inBucket, isFound⟩

/-- A search for one member finds it, and the node before it is what has to be
changed to take the member out. -/
theorem exists_search (table : Table read next heads bucket Member)
    (within : ∀ node, Member node → node ∈ all) (enough : all.length < fuel)
    {found : Node → Entry → Bool} {node : Node} {entry : Entry} (member : Member node)
    (reads : read node = some entry)
    (only : ∀ other held, Member other → read other = some held →
      bucket held = bucket entry → (found other held = true ↔ other = node)) :
    ∃ before, search read next found fuel none (heads (bucket entry)) =
        some (some (before, node, entry)) ∧
      (∀ other ∈ before, Member other ∧ other ≠ node) ∧
      ∀ (after : Node → Option Entry) (headsAfter : Bucket → Option Node),
        Unlinked read next heads bucket node entry after headsAfter before →
        Table after next headsAfter bucket fun other => Member other ∧ other ≠ node := by
  obtain ⟨nodes, chain, nodup, holds⟩ := table.chain (bucket entry)
  have short : nodes.length ≤ all.length :=
    (List.subperm_of_subset nodup fun node member =>
      within node ((holds node).mp member).1).length_le
  have isThere : node ∈ nodes := (holds node).mpr ⟨member, entry, reads, rfl⟩
  rcases chain.search_eq found (Nat.lt_of_le_of_lt short enough) none with
    ⟨-, nowhere⟩ | ⟨earlier, other, held, later, split, finds, readsHeld, isFound⟩
  · have missed := nowhere node isThere entry reads
    rw [(only node entry member reads rfl).mpr rfl] at missed
    cases missed
  have atOther := (holds other).mp (by simp [split])
  obtain ⟨otherMember, _, readsAgain, inBucket⟩ := atOther
  obtain rfl := Option.some_inj.mp (readsHeld.symm.trans readsAgain)
  obtain rfl := (only other held otherMember readsHeld inBucket).mp isFound
  obtain rfl := Option.some_inj.mp (reads.symm.trans readsHeld)
  subst split
  rw [Option.or_none] at finds
  have inChain : ∀ one, one ∈ earlier ++ later →
      Member one ∧ one ≠ other ∧
        ∃ entry', read one = some entry' ∧ bucket entry' = bucket entry := by
    intro one isOne
    have inNodes : one ∈ earlier ++ other :: later := by
      rw [List.mem_append] at isOne
      simpa using isOne.imp_right Or.inr
    obtain ⟨oneMember, inSame⟩ := (holds one).mp inNodes
    refine ⟨oneMember, ?_, inSame⟩
    rintro rfl
    have := (List.nodup_middle.mp nodup)
    exact (List.nodup_cons.mp this).1 isOne
  have isRest : ∀ one, one ∈ earlier ++ later ↔ (Member one ∧ one ≠ other) ∧
      ∃ held, read one = some held ∧ bucket held = bucket entry := by
    intro one
    constructor
    · intro isOne
      obtain ⟨oneMember, isOther, inSame⟩ := inChain one isOne
      exact ⟨⟨oneMember, isOther⟩, inSame⟩
    · rintro ⟨⟨oneMember, isOther⟩, inSame⟩
      have := (holds one).mpr ⟨oneMember, inSame⟩
      simpa [isOther] using this
  have restNodup : (earlier ++ later).Nodup := (List.nodup_cons.mp (List.nodup_middle.mp nodup)).2
  refine ⟨earlier.getLast?, finds, ?_, ?_⟩
  · intro one isLast
    obtain ⟨oneMember, isOther, -⟩ := inChain one
      (List.mem_append_left later (List.mem_of_mem_getLast? isLast))
    exact ⟨oneMember, isOther⟩
  intro after headsAfter unlinked
  obtain ⟨others, goesOn, elsewhere⟩ : (∀ one, one ≠ other →
      (∀ index, (∃ held, after one = some held ∧ bucket held = index) ↔
        ∃ held, read one = some held ∧ bucket held = index) ∧
      (one ∉ earlier → after one = read one)) ∧
      Chain after next (headsAfter (bucket entry)) (earlier ++ later) ∧
      ∀ index, index ≠ bucket entry → headsAfter index = heads index := by
    generalize isLast : earlier.getLast? = before at unlinked
    cases unlinked with
    | first same head elsewhere =>
        obtain rfl := List.getLast?_eq_none_iff.mp isLast
        obtain ⟨_, -, readsNode, tail⟩ := (chain : Chain _ _ _ (other :: later)).exists_tail
        obtain rfl := Option.some_inj.mp (readsNode.symm.trans reads)
        refine ⟨fun one isOther => ⟨fun index => by rw [same one isOther], fun _ =>
          same one isOther⟩, ?_, elsewhere⟩
        rw [head]
        exact tail.congr fun one isOne => same one (inChain one isOne).2.1
    | @behind before held changed readsBefore writes skips stays same elsewhere =>
        obtain ⟨front, rfl⟩ := List.getLast?_eq_some_iff.mp isLast
        refine ⟨fun one isOther => ⟨fun index => ?_, fun notEarlier => same one ?_ isOther⟩, ?_,
          fun index _ => elsewhere index⟩
        · by_cases isBefore : one = before
          · subst isBefore
            simp [readsBefore, writes, stays]
          · rw [same one isBefore isOther]
        · rintro rfl
          exact notEarlier (by simp)
        · rw [elsewhere]
          simp only [List.append_assoc, List.singleton_append] at chain nodup ⊢
          exact chain.unlink nodup reads writes skips same
  refine ⟨fun one isOne => ?_, fun index => ?_⟩
  · obtain ⟨held, readsOne⟩ := table.reads one isOne.1
    obtain ⟨changed, writes, -⟩ := ((others one isOne.2).1 _).mpr ⟨held, readsOne, rfl⟩
    exact ⟨changed, writes⟩
  · by_cases isBucket : index = bucket entry
    · subst isBucket
      refine ⟨earlier ++ later, goesOn, restNodup, fun one => (isRest one).trans ?_⟩
      exact and_congr_right fun isOne => ((others one isOne.2).1 _).symm
    · obtain ⟨nodes, chain, nodup, holds⟩ := table.chain index
      have apart : ∀ one ∈ nodes, one ≠ other ∧ one ∉ earlier := by
        intro one isOne
        obtain ⟨-, held, readsOne, inBucket⟩ := (holds one).mp isOne
        refine ⟨?_, fun isEarlier => ?_⟩
        · rintro rfl
          have isEntry := Option.some_inj.mp (readsOne.symm.trans reads)
          exact isBucket (inBucket.symm.trans (congrArg bucket isEntry))
        · obtain ⟨-, -, held', readsAgain, inSame⟩ :=
            inChain one (List.mem_append_left later isEarlier)
          obtain rfl := Option.some_inj.mp (readsOne.symm.trans readsAgain)
          exact isBucket (inBucket.symm.trans inSame)
      refine ⟨nodes, ?_, nodup, fun one => (holds one).trans ?_⟩
      · rw [elsewhere index isBucket]
        exact chain.congr fun one isOne =>
          (others one (apart one isOne).1).2 (apart one isOne).2
      · constructor
        · rintro ⟨isMember, inBucket⟩
          have isOther := (apart one ((holds one).mpr ⟨isMember, inBucket⟩)).1
          exact ⟨⟨isMember, isOther⟩, ((others one isOther).1 index).mpr inBucket⟩
        · rintro ⟨⟨isMember, isOther⟩, inBucket⟩
          exact ⟨isMember, ((others one isOther).1 index).mp inBucket⟩

end Search

/-- A node goes in at the head of its bucket. -/
theorem insert {node : Node} {entry : Entry} (table : Table read next heads bucket Member)
    (fresh : ¬Member node) (reads : after node = some entry)
    (leads : next entry = heads (bucket entry))
    (same : ∀ other, other ≠ node → after other = read other)
    (head : headsAfter (bucket entry) = some node)
    (elsewhere : ∀ index, index ≠ bucket entry → headsAfter index = heads index) :
    Table after next headsAfter bucket fun other => other = node ∨ Member other where
  reads other := by
    rintro (rfl | member)
    · exact ⟨entry, reads⟩
    · rw [same other (by rintro rfl; exact fresh member)]
      exact table.reads other member
  chain index := by
    obtain ⟨nodes, chain, nodup, holds⟩ := table.chain index
    have apart : ∀ other ∈ nodes, other ≠ node := by
      rintro _ member rfl
      exact fresh ((holds _).mp member).1
    have kept := chain.congr fun other member => same other (apart other member)
    have others : ∀ other, other ≠ node → (other ∈ nodes ↔ (other = node ∨ Member other) ∧
        ∃ held, after other = some held ∧ bucket held = index) := by
      intro other isOther
      rw [holds other, same other isOther]
      simp [isOther]
    by_cases isBucket : index = bucket entry
    · subst isBucket
      refine ⟨node :: nodes, ?_, List.nodup_cons.mpr ⟨fun member => apart node member rfl, nodup⟩,
        fun other => ?_⟩
      · rw [head]
        exact .cons reads (leads ▸ kept)
      · by_cases isOther : other = node
        · subst isOther
          simp [reads]
        · rw [List.mem_cons, or_iff_right isOther, others other isOther]
    · refine ⟨nodes, elsewhere index isBucket ▸ kept, nodup, fun other => ?_⟩
      by_cases isOther : other = node
      · subst isOther
        refine iff_of_false (fun member => apart other member rfl) ?_
        rintro ⟨-, held, readsHeld, inBucket⟩
        have isEntry := Option.some_inj.mp (readsHeld.symm.trans reads)
        exact isBucket (inBucket.symm.trans (congrArg bucket isEntry))
      · exact others other isOther

end Table

/-! ## Moving a table to other buckets -/

section Moving

variable {State Other : Type}

/-- Moves all nodes of a table: every bucket is walked along its chain. -/
def rehash (first : Bucket → State → Option (Option Node))
    (relink : Node → State → Option (Option Node × State)) (fuel : Nat)
    (buckets : List Bucket) (state : State) : Option State :=
  buckets.foldlM (fun state index => do
    let node ← first index state
    walk relink fuel node state) state

/-- What each round of a walk preserves, the walk preserves. -/
theorem walk_preserves (Holds : State → Prop)
    {body : Node → State → Option (Option Node × State)}
    (round : ∀ {node state next after}, Holds state → body node state = some (next, after) →
      Holds after) {fuel : Nat} {start : Option Node} {state after : State}
    (holds : Holds state) (walks : walk body fuel start state = some after) : Holds after := by
  induction fuel generalizing start state with
  | zero => cases walks
  | succ fuel ih =>
      cases start with
      | none =>
          obtain rfl := Option.some_inj.mp walks
          exact holds
      | some node =>
          obtain ⟨⟨next, middle⟩, runs, rest⟩ := Option.bind_eq_some_iff.mp walks
          exact ih (round holds runs) rest

theorem rehash_preserves (Holds : State → Prop)
    {first : Bucket → State → Option (Option Node)}
    {relink : Node → State → Option (Option Node × State)}
    (round : ∀ {node state next after}, Holds state → relink node state = some (next, after) →
      Holds after) {fuel : Nat} {buckets : List Bucket} {state after : State}
    (holds : Holds state) (moves : rehash first relink fuel buckets state = some after) :
    Holds after := by
  induction buckets generalizing state with
  | nil =>
      obtain rfl := Option.some_inj.mp moves
      exact holds
  | cons index later ih =>
      rw [rehash, List.foldlM_cons] at moves
      obtain ⟨middle, walks, rest⟩ := Option.bind_eq_some_iff.mp moves
      obtain ⟨node, -, walks⟩ := Option.bind_eq_some_iff.mp walks
      exact ih (walk_preserves Holds round holds walks) rest

/-- A walk visits the nodes of the chain that it starts with: each step says where
the chain goes on. -/
theorem exists_walk (Holds : List Node → State → Prop)
    {body : Node → State → Option (Option Node × State)}
    (steps : ∀ {node nodes state}, Holds (node :: nodes) state →
      ∃ after, body node state = some (nodes.head?, after) ∧ Holds nodes after)
    {state : State} (holds : Holds nodes state) {fuel : Nat} (enough : nodes.length < fuel) :
    ∃ after, walk body fuel nodes.head? state = some after ∧ Holds [] after := by
  induction nodes generalizing fuel state with
  | nil =>
      obtain ⟨fuel, rfl⟩ := Nat.exists_eq_succ_of_ne_zero (Nat.ne_zero_of_lt enough)
      exact ⟨state, rfl, holds⟩
  | cons node nodes ih =>
      obtain ⟨fuel, rfl⟩ := Nat.exists_eq_succ_of_ne_zero (Nat.ne_zero_of_lt enough)
      obtain ⟨moved, runs, holds⟩ := steps holds
      obtain ⟨after, walks, holds⟩ := ih holds (Nat.succ_lt_succ_iff.mp enough)
      exact ⟨after, by simp [walk, runs, walks], holds⟩

/-- What the body of the loop does that moves a table: the node goes in at the head of
its new bucket, and the loop goes on where the node led before. -/
structure Relinks (read : State → Node → Option Entry) (next : Entry → Option Node)
    (heads : State → Other → Option Node) (bucket : Entry → Bucket) (newBucket : Entry → Other)
    (relink : Node → State → Option (Option Node × State)) (Keeps : State → Prop)
    (Member : Node → Prop) : Prop where
  step : ∀ {state node entry}, Keeps state → Member node → read state node = some entry →
    ∃ after changed, relink node state = some (next entry, after) ∧ Keeps after ∧
      read after node = some changed ∧ bucket changed = bucket entry ∧
      newBucket changed = newBucket entry ∧ next changed = heads state (newBucket entry) ∧
      (∀ other, other ≠ node → read after other = read state other) ∧
      heads after (newBucket entry) = some node ∧
      ∀ index, index ≠ newBucket entry → heads after index = heads state index

variable {read : State → Node → Option Entry} {newHeads : State → Other → Option Node}
  {bucket : Entry → Bucket} {newBucket : Entry → Other}
  {relink : Node → State → Option (Option Node × State)} {Keeps : State → Prop}
  {Member : Node → Prop} {heads : Bucket → Option Node}

/-- While a table is moved: `rest` are the nodes of the bucket at hand that are still to
be moved, and `later` the buckets after it. -/
structure Moving (read : State → Node → Option Entry) (next : Entry → Option Node)
    (newHeads : State → Other → Option Node) (bucket : Entry → Bucket)
    (newBucket : Entry → Other) (Keeps : State → Prop) (Member : Node → Prop)
    (heads : Bucket → Option Node) (current : Bucket) (later : List Bucket)
    (rest : List Node) (state : State) : Prop where
  keeps : Keeps state
  nodup : rest.Nodup
  chain : Chain (read state) next rest.head? rest
  isRest : ∀ node ∈ rest, Member node ∧
    ∃ entry, read state node = some entry ∧ bucket entry = current
  pending : ∀ index ∈ later, ∃ nodes, Chain (read state) next (heads index) nodes ∧
    nodes.Nodup ∧ ∀ node, node ∈ nodes ↔
      Member node ∧ ∃ entry, read state node = some entry ∧ bucket entry = index
  moved : Table (read state) next (newHeads state) newBucket fun node =>
    Member node ∧ node ∉ rest ∧ ∀ entry, read state node = some entry → bucket entry ∉ later

theorem Moving.exists_step {current : Bucket} {later : List Bucket} {node : Node}
    {rest : List Node} {state : State}
    (relinks : Relinks read next newHeads bucket newBucket relink Keeps Member)
    (notLater : current ∉ later)
    (moving : Moving read next newHeads bucket newBucket Keeps Member heads current later
      (node :: rest) state) :
    ∃ after, relink node state = some (rest.head?, after) ∧
      Moving read next newHeads bucket newBucket Keeps Member heads current later rest after := by
  obtain ⟨apart, nodup⟩ := List.nodup_cons.mp moving.nodup
  obtain ⟨isMember, entry, reads, inBucket⟩ := moving.isRest node List.mem_cons_self
  obtain ⟨_, -, readsNode, tail⟩ :=
    (moving.chain : Chain _ _ _ (node :: rest)).exists_tail
  obtain rfl := Option.some_inj.mp (readsNode.symm.trans reads)
  obtain ⟨after, changed, runs, keeps, writes, stays, toBucket, leads, same, head, elsewhere⟩ :=
    relinks.step moving.keeps isMember reads
  have apartFrom : ∀ other ∈ rest, other ≠ node := by
    rintro _ member rfl
    exact apart member
  have leadsOn := tail.eq_head?
  refine ⟨after, by rw [runs, leadsOn], ⟨keeps, nodup, ?_, fun other member => ?_,
    fun index isLater => ?_, ?_⟩⟩
  · rw [← leadsOn]
    exact tail.congr fun other member => same other (apartFrom other member)
  · rw [same other (apartFrom other member)]
    exact moving.isRest other (List.mem_cons_of_mem node member)
  · obtain ⟨nodes, chain, nodup, holds⟩ := moving.pending index isLater
    have notIndex : ∀ held, read state node = some held → bucket held ≠ index := by
      rintro held readsHeld rfl
      obtain rfl := Option.some_inj.mp (readsHeld.symm.trans readsNode)
      exact notLater (inBucket ▸ isLater)
    refine ⟨nodes, chain.congr fun other member => same other ?_, nodup, fun other => ?_⟩
    · rintro rfl
      obtain ⟨-, held, readsHeld, inIndex⟩ := (holds other).mp member
      exact notIndex held readsHeld inIndex
    · rw [holds other]
      refine and_congr_right fun _ => ?_
      by_cases isNode : other = node
      · subst isNode
        refine iff_of_false ?_ ?_
        · rintro ⟨held, readsHeld, inIndex⟩
          exact notIndex held readsHeld inIndex
        · rintro ⟨held, readsHeld, inIndex⟩
          obtain rfl := Option.some_inj.mp (readsHeld.symm.trans writes)
          exact notIndex _ readsNode (stays ▸ inIndex)
      · rw [same other isNode]
  · refine (moving.moved.insert (fun isMoved => ?_) writes
      (by rw [leads, toBucket]) same (by rw [toBucket, head])
      fun index other => elsewhere index (toBucket ▸ other)).congr_members fun other => ?_
    · exact isMoved.2.1 List.mem_cons_self
    · by_cases isNode : other = node
      · subst isNode
        refine iff_of_true ⟨isMember, apart, fun held readsHeld => ?_⟩ (.inl rfl)
        obtain rfl := Option.some_inj.mp (readsHeld.symm.trans writes)
        rw [stays, inBucket]
        exact notLater
      · rw [same other isNode, List.mem_cons]
        simp [isNode]

theorem exists_rehash_from {buckets : List Bucket} {state : State}
    {first : Bucket → State → Option (Option Node)} {all : List Node} {fuel : Nat}
    (relinks : Relinks read next newHeads bucket newBucket relink Keeps Member)
    (keeps : Keeps state)
    (reads : ∀ state, Keeps state → ∀ index ∈ buckets, first index state = some (heads index))
    (nodup : buckets.Nodup)
    (pending : ∀ index ∈ buckets, ∃ nodes, Chain (read state) next (heads index) nodes ∧
      nodes.Nodup ∧ ∀ node, node ∈ nodes ↔
        Member node ∧ ∃ entry, read state node = some entry ∧ bucket entry = index)
    (moved : Table (read state) next (newHeads state) newBucket fun node =>
      Member node ∧ ∀ entry, read state node = some entry → bucket entry ∉ buckets)
    (within : ∀ node, Member node → node ∈ all) (enough : all.length < fuel) :
    ∃ after, rehash first relink fuel buckets state = some after ∧ Keeps after ∧
      Table (read after) next (newHeads after) newBucket Member := by
  induction buckets generalizing state with
  | nil => exact ⟨state, rfl, keeps, moved.congr_members fun node => by simp⟩
  | cons index buckets ih =>
      obtain ⟨notLater, nodupLater⟩ := List.nodup_cons.mp nodup
      obtain ⟨nodes, chain, nodupNodes, holds⟩ := pending index List.mem_cons_self
      have short : nodes.length ≤ all.length :=
        (List.subperm_of_subset nodupNodes fun node member =>
          within node ((holds node).mp member).1).length_le
      have start : Moving read next newHeads bucket newBucket Keeps Member heads index buckets
          nodes state := by
        refine ⟨keeps, nodupNodes, chain.eq_head? ▸ chain, fun node => (holds node).mp,
          fun other isLater => pending other (List.mem_cons_of_mem index isLater),
          moved.congr_members fun node => and_congr_right fun member => ?_⟩
        rw [holds node]
        simp only [List.mem_cons, not_or, not_and, not_exists]
        constructor
        · rintro ⟨elsewhere, notIn⟩ entry readsEntry
          exact ⟨elsewhere member entry readsEntry, notIn entry readsEntry⟩
        · exact fun apart => ⟨fun _ entry readsEntry => (apart entry readsEntry).1,
            fun entry readsEntry => (apart entry readsEntry).2⟩
      obtain ⟨between, walks, stopped⟩ := exists_walk
        (Moving read next newHeads bucket newBucket Keeps Member heads index buckets)
        (fun moving => moving.exists_step relinks notLater) start (Nat.lt_of_le_of_lt short enough)
      obtain ⟨after, runs, keeps, table⟩ := ih stopped.keeps
        (fun state keeps other member =>
          reads state keeps other (List.mem_cons_of_mem index member))
        nodupLater stopped.pending (stopped.moved.congr_members fun node => by simp)
      refine ⟨after, ?_, keeps, table⟩
      unfold rehash at runs ⊢
      rw [List.foldlM_cons, reads state start.keeps index List.mem_cons_self, chain.eq_head?]
      simpa only [Option.bind_eq_bind, Option.bind_some, walks] using runs

/-- A table is moved whole: afterwards each node is in its new bucket. -/
theorem Relinks.exists_rehash {state : State} {buckets : List Bucket}
    {first : Bucket → State → Option (Option Node)} {all : List Node} {fuel : Nat}
    (relinks : Relinks read next newHeads bucket newBucket relink Keeps Member)
    (keeps : Keeps state)
    (table : Table (read state) next heads bucket Member)
    (reads : ∀ state, Keeps state → ∀ index ∈ buckets, first index state = some (heads index))
    (nodup : buckets.Nodup) (covers : ∀ index, index ∉ buckets → heads index = none)
    (empty : ∀ index, newHeads state index = none)
    (within : ∀ node, Member node → node ∈ all) (enough : all.length < fuel) :
    ∃ after, rehash first relink fuel buckets state = some after ∧ Keeps after ∧
      Table (read after) next (newHeads after) newBucket Member := by
  refine exists_rehash_from relinks keeps reads nodup (fun index _ => table.chain index) ?_ within
    enough
  have nothing : Table (read state) next (newHeads state) newBucket fun _ => False :=
    (Table.empty : Table (read state) next _ newBucket _).congr (fun _ _ => rfl) empty
  refine nothing.congr_members fun node => iff_of_false ?_ id
  rintro ⟨member, notIn⟩
  obtain ⟨entry, readsEntry⟩ := table.reads node member
  obtain ⟨nodes, chain, -, holds⟩ := table.chain (bucket entry)
  have isThere := (holds node).mpr ⟨member, entry, readsEntry, rfl⟩
  rw [covers _ (notIn entry readsEntry)] at chain
  cases chain
  simp at isThere

end Moving

end HashChains
