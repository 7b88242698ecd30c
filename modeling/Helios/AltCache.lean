import Helios.CacheRefresh
import Helios.SlowPath
import Mathlib.Data.List.Destutter
import Mathlib.Data.List.Sort

/-! The cache of address lookup tables. The executor asks for a table by the keys it needs;
when there is none a thread creates one on chain, extends it by thirty keys at a time, waits
until it is ready, loads it and writes down which keys it is for, while the executor goes on.
What is written down survives restarts. -/

namespace Helios.AltCache

open Machine Runs SlowPath

def dynamicAltChunkSize : Nat := 30

/-- How long a creation that has not reported keeps another from being started. -/
def pendingWindow : Nat := RouteDedup.seconds 60

/-- Where a creating thread stands. `extending` holds the chunks that are still to be sent. -/
inductive Stage where
  | creating
  | extending (alt : Pubkey) (rest : List (List Pubkey))
  | waiting (alt : Pubkey)
  | storing (alt : Pubkey)
  | mapping (alt : Pubkey)
  | persisting
  | clearing

/-- The table a thread works on. -/
def Stage.table : Stage → Option Pubkey
  | .extending alt _ => some alt
  | .waiting alt => some alt
  | .storing alt => some alt
  | .mapping alt => some alt
  | _ => none

/-- The table a thread has yet to fill. -/
def Stage.extends_ : Stage → Option Pubkey
  | .extending alt _ => some alt
  | _ => none

structure Task where
  key : Nat
  addresses : List Pubkey
  startedAt : Instant
  stage : Stage

/-- An `Ok` for the keys asked for, with the table as it is then loaded. -/
structure Answer where
  asked : List Pubkey
  alt : Pubkey
  table : List Pubkey

/-- Where the executor stands in a call. -/
inductive Phase where
  | idle
  | missed (addresses : List Pubkey)

/-- `chain` holds the tables on chain and `persisted` the file; `answers` lists what was
answered, which the program keeps nowhere. -/
structure Cache where
  cache : HashMap Pubkey (List Pubkey)
  routeAltCache : HashMap Nat Pubkey
  pendingAltCreations : HashMap Nat Instant
  persisted : HashMap Nat Pubkey
  chain : HashMap Pubkey (List Pubkey)
  tasks : HashMap Nat Task
  nextTask : Nat
  phase : Phase
  answers : List Answer

/-- A flag tells whether a request to the node succeeds. -/
inductive Event where
  | ask (addresses : List Pubkey) (fetched : Bool)
  | begin_ (now : Instant)
  | created (task : Nat) (alt : Option Pubkey)
  | extended (task : Nat) (confirmed : Bool)
  | polled (task : Nat) (ready : Bool)
  | stored (task : Nat) (fetched : Bool)
  | mapped (task : Nat)
  | written (task : Nat) (saved : Bool)
  | cleared (task : Nat)
  | refreshed (fetched : Pubkey → Bool)
  | restarted (fetched : Pubkey → Bool)

/-- `addresses.dedup()` drops repetitions that follow each other. -/
def dedup (addresses : List Pubkey) : List Pubkey := addresses.destutter (· ≠ ·)

/-- `fetch_and_store` of one key. -/
def load (chain cache : HashMap Pubkey (List Pubkey)) (alt : Pubkey) :
    HashMap Pubkey (List Pubkey) :=
  match HashMap.get chain alt with
  | some addresses => cache.insert alt addresses
  | none => cache

def loadAll (chain cache : HashMap Pubkey (List Pubkey)) (keys : List Pubkey)
    (fetched : Pubkey → Bool) : HashMap Pubkey (List Pubkey) :=
  (keys.filter fetched).foldl (load chain) cache

section Step

variable (hash : List Pubkey → Nat) (known : List Pubkey)

/-- The hash of the sorted keys. -/
def hashAddressSet (addresses : List Pubkey) : Nat := hash (addresses.insertionSort (· ≤ ·))

/-- The lookup at the head of `try_get_or_spawn_create`. -/
def ask (state : Cache) (addresses : List Pubkey) (fetched : Bool) : Cache :=
  match HashMap.get state.routeAltCache (hashAddressSet hash addresses) with
  | some alt =>
      let cache :=
        if HashMap.containsKey state.cache alt || !fetched then state.cache
        else load state.chain state.cache alt
      match HashMap.get cache alt with
      | some table =>
          { state with cache := cache, answers := state.answers ++ [⟨addresses, alt, table⟩] }
      | none => { state with cache := cache, phase := .missed addresses }
  | none => { state with phase := .missed addresses }

/-- The rest of the call: the thread is started unless one is on its way. -/
def begin_ (state : Cache) (addresses : List Pubkey) (now : Instant) : Cache :=
  let key := hashAddressSet hash addresses
  let started :=
    { state with
      phase := .idle
      pendingAltCreations := state.pendingAltCreations.insert key now
      tasks := state.tasks.insert state.nextTask ⟨key, addresses, now, .creating⟩
      nextTask := state.nextTask + 1 }
  match HashMap.get state.pendingAltCreations key with
  | some since =>
      if now - since < pendingWindow then { state with phase := .idle } else started
  | none => started

def Cache.stage (state : Cache) (id : Nat) (task : Task) (stage : Stage) : Cache :=
  { state with tasks := state.tasks.insert id { task with stage := stage } }

/-- What follows when all chunks but these are sent. -/
def nextStage (alt : Pubkey) : List (List Pubkey) → Stage
  | [] => .waiting alt
  | rest => .extending alt rest

def step (state : Cache) : Event → Cache
  | .ask addresses fetched =>
      match state.phase with
      | .idle => ask hash state addresses fetched
      | .missed _ => state
  | .begin_ now =>
      match state.phase with
      | .missed addresses => begin_ hash state addresses now
      | .idle => state
  | .created id answer =>
      match HashMap.get state.tasks id with
      | some task =>
          match task.stage, answer with
          | .creating, some alt =>
              if task.addresses = [] then state.stage id task .clearing
              else
                { state.stage id task (nextStage alt (PoolHydrator.chunks dynamicAltChunkSize
                    (dedup task.addresses).length (dedup task.addresses))) with
                  chain := state.chain.insert alt [] }
          | .creating, none => state.stage id task .clearing
          | _, _ => state
      | none => state
  | .extended id confirmed =>
      match HashMap.get state.tasks id with
      | some task =>
          match task.stage with
          | .extending alt (chunk :: rest) =>
              if confirmed then
                { state.stage id task (nextStage alt rest) with
                  chain := state.chain.insert alt
                    ((HashMap.get state.chain alt).getD [] ++ chunk) }
              else state.stage id task .clearing
          | _ => state
      | none => state
  | .polled id ready =>
      match HashMap.get state.tasks id with
      | some task =>
          match task.stage with
          | .waiting alt =>
              if ready then
                if (dedup task.addresses).length ≤
                    ((HashMap.get state.chain alt).getD []).length then
                  state.stage id task (.storing alt)
                else state
              else state.stage id task .clearing
          | _ => state
      | none => state
  | .stored id fetched =>
      match HashMap.get state.tasks id with
      | some task =>
          match task.stage with
          | .storing alt =>
              { state.stage id task (.mapping alt) with
                cache := if fetched then load state.chain state.cache alt else state.cache }
          | _ => state
      | none => state
  | .mapped id =>
      match HashMap.get state.tasks id with
      | some task =>
          match task.stage with
          | .mapping alt =>
              { state.stage id task .persisting with
                routeAltCache := state.routeAltCache.insert task.key alt }
          | _ => state
      | none => state
  | .written id saved =>
      match HashMap.get state.tasks id with
      | some task =>
          match task.stage with
          | .persisting =>
              { state.stage id task .clearing with
                persisted := if saved then state.routeAltCache else state.persisted }
          | _ => state
      | none => state
  | .cleared id =>
      match HashMap.get state.tasks id with
      | some task =>
          match task.stage with
          | .clearing =>
              { state with
                pendingAltCreations := state.pendingAltCreations.erase task.key
                tasks := state.tasks.erase id }
          | _ => state
      | none => state
  | .refreshed fetched =>
      { state with cache := loadAll state.chain state.cache state.cache.keys fetched }
  | .restarted fetched =>
      { state with
        cache := loadAll state.chain HashMap.empty
          (known ++ HashMap.values state.persisted) fetched
        routeAltCache := state.persisted
        pendingAltCreations := HashMap.empty
        tasks := HashMap.empty
        phase := .idle }

/-- Nothing is loaded yet, and the known tables are on chain. -/
def start (chain : HashMap Pubkey (List Pubkey)) : Cache :=
  ⟨HashMap.empty, HashMap.empty, HashMap.empty, HashMap.empty, chain, HashMap.empty, 0, .idle, []⟩

end Step

/-! What the tables hold. -/

/-- The table of a thread holds what was sent so far, and from then on all of its keys. -/
def Staged (chain : HashMap Pubkey (List Pubkey)) (addresses : List Pubkey) : Stage → Prop
  | .extending alt rest => ∃ done, HashMap.get chain alt = some done ∧
      done ++ rest.flatten = dedup addresses
  | .waiting alt => HashMap.get chain alt = some (dedup addresses)
  | .storing alt => HashMap.get chain alt = some (dedup addresses)
  | .mapping alt => HashMap.get chain alt = some (dedup addresses)
  | _ => True

/-- The file or the map in memory has the table for the hash. -/
def Written (state : Cache) (key : Nat) (alt : Pubkey) : Prop :=
  HashMap.get state.routeAltCache key = some alt ∨ HashMap.get state.persisted key = some alt

def Idle (state : Cache) (alt : Pubkey) : Prop :=
  ∀ id task, HashMap.get state.tasks id = some task → task.stage.extends_ ≠ some alt

/-- `among` are the sets of keys that were asked for. -/
structure Sound (hash : List Pubkey → Nat) (among : List Pubkey → Prop) (state : Cache) :
    Prop where
  keyed : ∀ id task, HashMap.get state.tasks id = some task →
    task.key = hashAddressSet hash task.addresses ∧ among task.addresses
  missed : ∀ addresses, state.phase = .missed addresses → among addresses
  staged : ∀ id task, HashMap.get state.tasks id = some task →
    Staged state.chain task.addresses task.stage
  own : ∀ id other first second alt, HashMap.get state.tasks id = some first →
    HashMap.get state.tasks other = some second → first.stage.extends_ = some alt →
      second.stage.table = some alt → id = other
  loaded : ∀ alt table, HashMap.get state.cache alt = some table →
    HashMap.get state.chain alt = some table ∧ Idle state alt
  written : ∀ key alt, Written state key alt →
    (∃ asked, among asked ∧ hashAddressSet hash asked = key ∧
      HashMap.get state.chain alt = some (dedup asked)) ∧ Idle state alt
  answered : ∀ answer ∈ state.answers, among answer.asked ∧ ∃ asked, among asked ∧
    hashAddressSet hash asked = hashAddressSet hash answer.asked ∧ answer.table = dedup asked

section Sound

variable (hash : List Pubkey → Nat) (known : List Pubkey) (among : List Pubkey → Prop)

theorem table_of_extends (stage : Stage) (alt : Pubkey) (extends_ : stage.extends_ = some alt) :
    stage.table = some alt := by
  cases stage with
  | extending other rest => exact extends_
  | _ => cases extends_

/-- What a thread works on is on chain. -/
theorem chain_of_table (chain : HashMap Pubkey (List Pubkey)) (addresses : List Pubkey)
    (stage : Stage) (alt : Pubkey) (staged : Staged chain addresses stage)
    (table : stage.table = some alt) : HashMap.get chain alt ≠ none := by
  cases stage with
  | extending other rest =>
      cases table
      rcases staged with ⟨done, held, -⟩
      simp [held]
  | waiting other => cases table; simp [show HashMap.get chain alt = _ from staged]
  | storing other => cases table; simp [show HashMap.get chain alt = _ from staged]
  | mapping other => cases table; simp [show HashMap.get chain alt = _ from staged]
  | creating => cases table
  | persisting => cases table
  | clearing => cases table

theorem staged_insert (chain : HashMap Pubkey (List Pubkey)) (addresses content : List Pubkey)
    (stage : Stage) (alt : Pubkey) (staged : Staged chain addresses stage)
    (other : stage.table ≠ some alt) : Staged (chain.insert alt content) addresses stage := by
  have kept : ∀ key, stage.table = some key →
      HashMap.get (chain.insert alt content) key = HashMap.get chain key := by
    intro key table
    apply HashMap.get_insert_ne
    rintro rfl
    exact other table
  cases stage with
  | extending key rest =>
      rcases staged with ⟨done, held, whole⟩
      exact ⟨done, (kept key rfl).trans held, whole⟩
  | waiting key => exact (kept key rfl).trans staged
  | storing key => exact (kept key rfl).trans staged
  | mapping key => exact (kept key rfl).trans staged
  | creating => trivial
  | persisting => trivial
  | clearing => trivial

/-- A task of the new map is the one that moved or one of the others. -/
theorem get_tasks (tasks : HashMap Nat Task) (id other : Nat) (moved task : Task)
    (found : HashMap.get (tasks.insert id moved) other = some task) :
    (other = id ∧ task = moved) ∨ (other ≠ id ∧ HashMap.get tasks other = some task) := by
  by_cases same : other = id
  · rw [same, HashMap.get_insert] at found
    exact Or.inl ⟨same, (Option.some.inj found).symm⟩
  · rw [HashMap.get_insert_ne _ _ _ _ same] at found
    exact Or.inr ⟨same, found⟩

/-- A thread that goes on with the table it has, or leaves it. -/
theorem sound_stage (state : Cache) (id : Nat) (task : Task) (stage : Stage)
    (sound : Sound hash among state) (held : HashMap.get state.tasks id = some task)
    (staged : Staged state.chain task.addresses stage)
    (fewer : ∀ alt, stage.extends_ = some alt → task.stage.extends_ = some alt)
    (table : ∀ alt, stage.table = some alt → task.stage.table = some alt) :
    Sound hash among (state.stage id task stage) := by
  have idle : ∀ alt, Idle state alt → Idle (state.stage id task stage) alt := by
    intro alt quiet other moved found extends_
    rcases get_tasks _ _ _ _ _ found with ⟨-, rfl⟩ | ⟨-, old⟩
    · exact quiet id task held (fewer alt extends_)
    · exact quiet other moved old extends_
  exact {
    keyed := by
      intro other moved found
      rcases get_tasks _ _ _ _ _ found with ⟨-, rfl⟩ | ⟨-, old⟩
      · exact sound.keyed id task held
      · exact sound.keyed other moved old
    missed := sound.missed
    staged := by
      intro other moved found
      rcases get_tasks _ _ _ _ _ found with ⟨-, rfl⟩ | ⟨-, old⟩
      · exact staged
      · exact sound.staged other moved old
    own := by
      intro first second one two alt foundOne foundTwo extends_ table_
      rcases get_tasks _ _ _ _ _ foundOne with ⟨sameOne, rfl⟩ | ⟨-, oldOne⟩
      · rcases get_tasks _ _ _ _ _ foundTwo with ⟨sameTwo, -⟩ | ⟨-, oldTwo⟩
        · rw [sameOne, sameTwo]
        · rw [sameOne]
          exact sound.own id second task two alt held oldTwo (fewer alt extends_) table_
      · rcases get_tasks _ _ _ _ _ foundTwo with ⟨sameTwo, rfl⟩ | ⟨-, oldTwo⟩
        · rw [sameTwo]
          exact sound.own first id one task alt oldOne held extends_ (table alt table_)
        · exact sound.own first second one two alt oldOne oldTwo extends_ table_
    loaded := fun alt content found =>
      ⟨(sound.loaded alt content found).1, idle alt (sound.loaded alt content found).2⟩
    written := fun key alt found =>
      ⟨(sound.written key alt found).1, idle alt (sound.written key alt found).2⟩
    answered := sound.answered }

/-- A thread that fills the table only it has. -/
theorem sound_fill (state : Cache) (id : Nat) (task : Task) (stage : Stage) (alt : Pubkey)
    (content : List Pubkey) (sound : Sound hash among state)
    (held : HashMap.get state.tasks id = some task)
    (alone : ∀ other task, other ≠ id → HashMap.get state.tasks other = some task →
      task.stage.table ≠ some alt)
    (unloaded : HashMap.get state.cache alt = none)
    (unwritten : ∀ key, ¬ Written state key alt)
    (staged : Staged (state.chain.insert alt content) task.addresses stage)
    (table : stage.table = some alt) :
    Sound hash among { state.stage id task stage with chain := state.chain.insert alt content } := by
  have idle : ∀ other, other ≠ alt → Idle state other → Idle
      { state.stage id task stage with chain := state.chain.insert alt content } other := by
    intro other different quiet place moved found extends_
    rcases get_tasks _ _ _ _ _ found with ⟨-, rfl⟩ | ⟨-, old⟩
    · have same := table_of_extends _ _ extends_
      rw [table] at same
      exact different (Option.some.inj same).symm
    · exact quiet place moved old extends_
  exact {
    keyed := by
      intro other moved found
      rcases get_tasks _ _ _ _ _ found with ⟨-, rfl⟩ | ⟨-, old⟩
      · exact sound.keyed id task held
      · exact sound.keyed other moved old
    missed := sound.missed
    staged := by
      intro other moved found
      rcases get_tasks _ _ _ _ _ found with ⟨-, rfl⟩ | ⟨different, old⟩
      · exact staged
      · exact staged_insert _ _ _ _ _ (sound.staged other moved old)
          (alone other moved different old)
    own := by
      intro first second one two key foundOne foundTwo extends_ table_
      rcases get_tasks _ _ _ _ _ foundOne with ⟨sameOne, rfl⟩ | ⟨different, oldOne⟩
      · have same := table_of_extends _ _ extends_
        rw [table] at same
        rcases get_tasks _ _ _ _ _ foundTwo with ⟨sameTwo, -⟩ | ⟨different, oldTwo⟩
        · rw [sameOne, sameTwo]
        · exact absurd (table_.trans same.symm) (alone second two different oldTwo)
      · rcases get_tasks _ _ _ _ _ foundTwo with ⟨sameTwo, rfl⟩ | ⟨-, oldTwo⟩
        · have mine := table_of_extends _ _ extends_
          have same : some alt = some key := table.symm.trans table_
          exact absurd (mine.trans same.symm) (alone first one different oldOne)
        · exact sound.own first second one two key oldOne oldTwo extends_ table_
    loaded := by
      intro other content found
      have different : other ≠ alt := by
        rintro rfl
        exact absurd (unloaded.symm.trans found) (by simp)
      rcases sound.loaded other content found with ⟨onChain, quiet⟩
      exact ⟨(HashMap.get_insert_ne _ _ _ _ different).trans onChain, idle other different quiet⟩
    written := by
      intro key other found
      have different : other ≠ alt := by
        rintro rfl
        exact unwritten key found
      rcases sound.written key other found with ⟨⟨asked, among_, hashed, onChain⟩, quiet⟩
      exact ⟨⟨asked, among_, hashed, (HashMap.get_insert_ne _ _ _ _ different).trans onChain⟩,
        idle other different quiet⟩
    answered := sound.answered }

theorem get_load (chain cache : HashMap Pubkey (List Pubkey)) (alt key : Pubkey)
    (table : List Pubkey) (found : HashMap.get (load chain cache alt) key = some table) :
    HashMap.get cache key = some table ∨ (key = alt ∧ HashMap.get chain key = some table) := by
  unfold load at found
  split at found
  · next addresses held =>
      by_cases same : key = alt
      · rw [same, HashMap.get_insert] at found
        rw [same, held]
        exact Or.inr ⟨rfl, found⟩
      · rw [HashMap.get_insert_ne _ _ _ _ same] at found
        exact Or.inl found
  · exact Or.inl found

theorem get_loadAll (chain cache : HashMap Pubkey (List Pubkey)) (keys : List Pubkey)
    (fetched : Pubkey → Bool) (key : Pubkey) (table : List Pubkey)
    (found : HashMap.get (loadAll chain cache keys fetched) key = some table) :
    HashMap.get cache key = some table ∨ (key ∈ keys ∧ HashMap.get chain key = some table) := by
  have loaded : ∀ (wanted : List Pubkey) (cache : HashMap Pubkey (List Pubkey)),
      HashMap.get (wanted.foldl (load chain) cache) key = some table →
      HashMap.get cache key = some table ∨
        (key ∈ wanted ∧ HashMap.get chain key = some table) := by
    intro wanted
    induction wanted with
    | nil => exact fun _ found => Or.inl found
    | cons alt rest ih =>
        intro cache found
        rcases ih _ found with before | ⟨member, held⟩
        · rcases get_load _ _ _ _ _ before with old | ⟨rfl, held⟩
          · exact Or.inl old
          · exact Or.inr ⟨List.mem_cons_self, held⟩
        · exact Or.inr ⟨List.mem_cons_of_mem _ member, held⟩
  rcases loaded _ _ found with before | ⟨member, held⟩
  · exact Or.inl before
  · exact Or.inr ⟨(List.mem_filter.mp member).1, held⟩

theorem sound_cache (state : Cache) (cache : HashMap Pubkey (List Pubkey))
    (sound : Sound hash among state)
    (loaded : ∀ alt table, HashMap.get cache alt = some table →
      HashMap.get state.chain alt = some table ∧ Idle state alt) :
    Sound hash among { state with cache := cache } :=
  { sound with loaded := loaded }

theorem sound_ask (state : Cache) (addresses : List Pubkey) (fetched : Bool)
    (sound : Sound hash among state) (asked : among addresses) :
    Sound hash among (ask hash state addresses fetched) := by
  have missed : ∀ cache, (∀ alt table, HashMap.get cache alt = some table →
      HashMap.get state.chain alt = some table ∧ Idle state alt) →
      Sound hash among { state with cache := cache, phase := .missed addresses } := by
    intro cache loaded
    refine { sound_cache hash among state cache sound loaded with missed := ?_ }
    intro other same
    cases same
    exact asked
  unfold ask
  split
  · next alt held =>
      rcases sound.written _ alt (Or.inl held) with ⟨⟨made, among_, hashed, onChain⟩, quiet⟩
      have loaded : ∀ key table, HashMap.get
          (if HashMap.containsKey state.cache alt || !fetched then state.cache
            else load state.chain state.cache alt) key = some table →
          HashMap.get state.chain key = some table ∧ Idle state key := by
        intro key table found
        split at found
        · exact sound.loaded key table found
        · rcases get_load _ _ _ _ _ found with old | ⟨rfl, now⟩
          · exact sound.loaded key table old
          · exact ⟨now, quiet⟩
      dsimp only
      split
      · next table found =>
          have content := (loaded alt table found).1
          refine { sound_cache hash among state _ sound loaded with answered := ?_ }
          intro answer member
          rcases List.mem_append.mp member with before | last
          · exact sound.answered answer before
          · rw [List.mem_singleton.mp last]
            rw [onChain] at content
            exact ⟨asked, made, among_, hashed, (Option.some.inj content).symm⟩
      · exact missed _ loaded
  · exact missed _ sound.loaded

theorem sound_begin (state : Cache) (addresses : List Pubkey) (now : Instant)
    (sound : Sound hash among state) (missed : state.phase = .missed addresses) :
    Sound hash among (begin_ hash state addresses now) := by
  have asked := sound.missed addresses missed
  have idle : Sound hash among { state with phase := .idle } := by
    refine { sound with missed := ?_ }
    intro other impossible
    cases impossible
  have started : Sound hash among
      { state with
        phase := .idle
        pendingAltCreations :=
          state.pendingAltCreations.insert (hashAddressSet hash addresses) now
        tasks := state.tasks.insert state.nextTask
          ⟨hashAddressSet hash addresses, addresses, now, .creating⟩
        nextTask := state.nextTask + 1 } := by
    have quiet : ∀ alt, Idle state alt → ∀ id task, HashMap.get (state.tasks.insert
        state.nextTask ⟨hashAddressSet hash addresses, addresses, now, .creating⟩) id =
          some task → task.stage.extends_ ≠ some alt := by
      intro alt still id task found extends_
      rcases get_tasks _ _ _ _ _ found with ⟨-, rfl⟩ | ⟨-, old⟩
      · cases extends_
      · exact still id task old extends_
    exact {
      keyed := by
        intro id task found
        rcases get_tasks _ _ _ _ _ found with ⟨-, rfl⟩ | ⟨-, old⟩
        · exact ⟨rfl, asked⟩
        · exact sound.keyed id task old
      missed := idle.missed
      staged := by
        intro id task found
        rcases get_tasks _ _ _ _ _ found with ⟨-, rfl⟩ | ⟨-, old⟩
        · trivial
        · exact sound.staged id task old
      own := by
        intro first second one two alt foundOne foundTwo extends_ table
        rcases get_tasks _ _ _ _ _ foundOne with ⟨-, rfl⟩ | ⟨-, oldOne⟩
        · cases extends_
        · rcases get_tasks _ _ _ _ _ foundTwo with ⟨-, rfl⟩ | ⟨-, oldTwo⟩
          · cases table
          · exact sound.own first second one two alt oldOne oldTwo extends_ table
      loaded := fun alt table found =>
        ⟨(sound.loaded alt table found).1, quiet alt (sound.loaded alt table found).2⟩
      written := fun key alt found =>
        ⟨(sound.written key alt found).1, quiet alt (sound.written key alt found).2⟩
      answered := sound.answered }
  unfold begin_
  dsimp only
  split
  · split
    · exact idle
    · exact started
  · exact started

theorem idle_of_table (state : Cache) (sound : Sound hash among state) (id : Nat) (task : Task)
    (alt : Pubkey) (held : HashMap.get state.tasks id = some task)
    (table : task.stage.table = some alt) (full : task.stage.extends_ = none) :
    Idle state alt := by
  intro other second found extends_
  have same := sound.own other id second task alt found held extends_ table
  rw [same, held] at found
  cases found
  rw [full] at extends_
  cases extends_

theorem mem_dedup (addresses : List Pubkey) (key : Pubkey) (member : key ∈ addresses) :
    key ∈ dedup addresses := by
  have kept : ∀ (rest : List Pubkey) (first : Pubkey), key ∈ first :: rest →
      key ∈ rest.destutter' (· ≠ ·) first := by
    intro rest
    induction rest with
    | nil => exact fun _ member => member
    | cons second rest ih =>
        intro first member
        by_cases different : first ≠ second
        · rw [List.destutter'_cons_pos _ different]
          rcases List.mem_cons.mp member with rfl | later
          · exact List.mem_cons_self
          · exact List.mem_cons_of_mem _ (ih second later)
        · rw [List.destutter'_cons_neg _ different]
          rw [not_not.mp different] at member ⊢
          rcases List.mem_cons.mp member with rfl | later
          · exact ih key List.mem_cons_self
          · exact ih second later
  cases addresses with
  | nil => cases member
  | cons first rest => exact kept rest first member

theorem staged_next (chain : HashMap Pubkey (List Pubkey)) (addresses done : List Pubkey)
    (alt : Pubkey) (rest : List (List Pubkey)) (held : HashMap.get chain alt = some done)
    (whole : done ++ rest.flatten = dedup addresses) :
    Staged chain addresses (nextStage alt rest) := by
  cases rest with
  | nil =>
      rw [List.flatten_nil, List.append_nil] at whole
      exact held.trans (congrArg some whole)
  | cons chunk rest => exact ⟨done, held, whole⟩

theorem table_nextStage (alt : Pubkey) (rest : List (List Pubkey)) :
    (nextStage alt rest).table = some alt := by
  cases rest <;> rfl

/-- A table that is not on chain is nowhere. -/
theorem nowhere (state : Cache) (sound : Sound hash among state) (alt : Pubkey)
    (new : HashMap.get state.chain alt = none) :
    (∀ id task, HashMap.get state.tasks id = some task → task.stage.table ≠ some alt) ∧
      HashMap.get state.cache alt = none ∧ ∀ key, ¬ Written state key alt := by
  refine ⟨?_, ?_, ?_⟩
  · intro id task found table
    exact chain_of_table _ _ _ _ (sound.staged id task found) table new
  · by_contra held
    rcases Option.ne_none_iff_exists'.mp held with ⟨content, found⟩
    rw [(sound.loaded alt content found).1] at new
    cases new
  · intro key found
    rcases sound.written key alt found with ⟨⟨asked, -, -, onChain⟩, -⟩
    rw [onChain] at new
    cases new

theorem sound_created (state : Cache) (id : Nat) (task : Task) (alt : Pubkey)
    (sound : Sound hash among state) (held : HashMap.get state.tasks id = some task)
    (new : HashMap.get state.chain alt = none) :
    Sound hash among
      { state.stage id task (nextStage alt (PoolHydrator.chunks dynamicAltChunkSize
          (dedup task.addresses).length (dedup task.addresses))) with
        chain := state.chain.insert alt [] } := by
  rcases nowhere hash among state sound alt new with ⟨tasks, cache, written⟩
  apply sound_fill hash among state id task _ alt [] sound held
    (fun other moved _ found => tasks other moved found) cache written
  · apply staged_next _ _ [] alt _ (HashMap.get_insert _ _ _)
    rw [List.nil_append]
    exact CacheRefresh.flatten_chunks _ _ _ (by decide) (Nat.le_refl _)
  · exact table_nextStage alt _

theorem sound_extended (state : Cache) (id : Nat) (task : Task) (alt : Pubkey)
    (chunk : List Pubkey) (rest : List (List Pubkey)) (sound : Sound hash among state)
    (held : HashMap.get state.tasks id = some task)
    (extending : task.stage = .extending alt (chunk :: rest)) :
    Sound hash among
      { state.stage id task (nextStage alt rest) with
        chain := state.chain.insert alt ((HashMap.get state.chain alt).getD [] ++ chunk) } := by
  have mine : task.stage.extends_ = some alt := by rw [extending]; rfl
  have busy : ¬ Idle state alt := fun idle => idle id task held mine
  have staged := sound.staged id task held
  rw [extending] at staged
  rcases staged with ⟨done, onChain, whole⟩
  rw [List.flatten_cons, ← List.append_assoc] at whole
  apply sound_fill hash among state id task _ alt _ sound held
  · intro other moved different found table
    exact different (sound.own id other task moved alt held found mine table).symm
  · by_contra loaded
    rcases Option.ne_none_iff_exists'.mp loaded with ⟨content, found⟩
    exact busy (sound.loaded alt content found).2
  · intro key found
    exact busy (sound.written key alt found).2
  · apply staged_next _ _ (done ++ chunk) alt rest _ whole
    rw [HashMap.get_insert, onChain]
    rfl
  · exact table_nextStage alt rest

theorem sound_stop (state : Cache) (id : Nat) (task : Task) (sound : Sound hash among state)
    (held : HashMap.get state.tasks id = some task) :
    Sound hash among (state.stage id task .clearing) := by
  apply sound_stage hash among state id task .clearing sound held trivial
  · intro alt impossible
    cases impossible
  · intro alt impossible
    cases impossible

theorem sound_mapped (state : Cache) (id : Nat) (task : Task) (alt : Pubkey)
    (sound : Sound hash among state) (held : HashMap.get state.tasks id = some task)
    (mapping : task.stage = .mapping alt) :
    Sound hash among { state.stage id task .persisting with
      routeAltCache := state.routeAltCache.insert task.key alt } := by
  have left : Sound hash among (state.stage id task .persisting) := by
    apply sound_stage hash among state id task .persisting sound held trivial
    · intro other impossible
      cases impossible
    · intro other impossible
      cases impossible
  have staged := sound.staged id task held
  rw [mapping] at staged
  rcases sound.keyed id task held with ⟨hashed, asked⟩
  have quiet : Idle state alt := by
    apply idle_of_table hash among state sound id task alt held
    · rw [mapping]
      rfl
    · rw [mapping]
      rfl
  refine { left with written := ?_ }
  intro key other found
  rcases found with now | file
  · by_cases same : key = task.key
    · rw [same, HashMap.get_insert] at now
      cases now
      rw [same]
      refine ⟨⟨task.addresses, asked, hashed.symm, staged⟩, ?_⟩
      intro place moved old extends_
      rcases get_tasks _ _ _ _ _ old with ⟨-, rfl⟩ | ⟨-, before⟩
      · cases extends_
      · exact quiet place moved before extends_
    · rw [HashMap.get_insert_ne _ _ _ _ same] at now
      exact left.written key other (Or.inl now)
  · exact left.written key other (Or.inr file)

/-- What a step must not do: ask for other keys, or create a table that is there. -/
def Admitted (state : Cache) : Event → Prop
  | .ask addresses _ => among addresses
  | .created _ (some alt) => HashMap.get state.chain alt = none
  | _ => True

theorem sound_step (state : Cache) (event : Event) (sound : Sound hash among state)
    (admitted : Admitted among state event) :
    Sound hash among (step hash known state event) := by
  cases event with
  | ask addresses fetched =>
      rw [step]
      split
      · exact sound_ask hash among state addresses fetched sound admitted
      · exact sound
  | begin_ now =>
      rw [step]
      split
      · next addresses missed => exact sound_begin hash among state addresses now sound missed
      · exact sound
  | created id answer =>
      rw [step]
      split
      · next task held =>
          split
          · next alt creating =>
              split
              · exact sound_stop hash among state id task sound held
              · exact sound_created hash among state id task alt sound held admitted
          · exact sound_stop hash among state id task sound held
          · exact sound
      · exact sound
  | extended id confirmed =>
      rw [step]
      split
      · next task held =>
          split
          · next alt chunk rest extending =>
              split
              · exact sound_extended hash among state id task alt chunk rest sound held extending
              · exact sound_stop hash among state id task sound held
          · exact sound
      · exact sound
  | polled id ready =>
      rw [step]
      split
      · next task held =>
          split
          · next alt waiting =>
              have staged := sound.staged id task held
              rw [waiting] at staged
              split
              · split
                · apply sound_stage hash among state id task (.storing alt) sound held staged
                  · intro other impossible
                    cases impossible
                  · intro other table
                    rw [waiting]
                    exact table
                · exact sound
              · exact sound_stop hash among state id task sound held
          · exact sound
      · exact sound
  | stored id fetched =>
      rw [step]
      split
      · next task held =>
          split
          · next alt storing =>
              have staged := sound.staged id task held
              rw [storing] at staged
              have quiet : Idle state alt := by
                apply idle_of_table hash among state sound id task alt held
                · rw [storing]
                  rfl
                · rw [storing]
                  rfl
              have loaded : ∀ key table, HashMap.get
                  (if fetched then load state.chain state.cache alt else state.cache) key =
                    some table → HashMap.get state.chain key = some table ∧ Idle state key := by
                intro key table found
                split at found
                · rcases get_load _ _ _ _ _ found with old | ⟨rfl, now⟩
                  · exact sound.loaded key table old
                  · exact ⟨now, quiet⟩
                · exact sound.loaded key table found
              apply sound_stage hash among _ id task (.mapping alt)
                (sound_cache hash among state _ sound loaded) held staged
              · intro other impossible
                cases impossible
              · intro other table
                rw [storing]
                exact table
          · exact sound
      · exact sound
  | mapped id =>
      rw [step]
      split
      · next task held =>
          split
          · next alt mapping => exact sound_mapped hash among state id task alt sound held mapping
          · exact sound
      · exact sound
  | written id saved =>
      rw [step]
      split
      · next task held =>
          split
          · have stopped := sound_stop hash among state id task sound held
            refine { stopped with written := ?_ }
            intro key alt found
            rcases found with now | file
            · exact stopped.written key alt (Or.inl now)
            · dsimp only at file
              split at file
              · exact stopped.written key alt (Or.inl file)
              · exact stopped.written key alt (Or.inr file)
          · exact sound
      · exact sound
  | cleared id =>
      rw [step]
      split
      · next task held =>
          split
          · have fewer : ∀ other moved, HashMap.get (state.tasks.erase id) other = some moved →
                HashMap.get state.tasks other = some moved := by
              intro other moved found
              rw [HashMap.get_erase] at found
              split at found
              · cases found
              · exact found
            exact {
              keyed := fun other moved found => sound.keyed other moved (fewer other moved found)
              missed := sound.missed
              staged := fun other moved found =>
                sound.staged other moved (fewer other moved found)
              own := fun first second one two alt foundOne foundTwo =>
                sound.own first second one two alt (fewer _ _ foundOne) (fewer _ _ foundTwo)
              loaded := fun alt table found => ⟨(sound.loaded alt table found).1,
                fun other moved kept => (sound.loaded alt table found).2 other moved
                  (fewer other moved kept)⟩
              written := fun key alt found => ⟨(sound.written key alt found).1,
                fun other moved kept => (sound.written key alt found).2 other moved
                  (fewer other moved kept)⟩
              answered := sound.answered }
          · exact sound
      · exact sound
  | refreshed fetched =>
      apply sound_cache hash among state _ sound
      intro alt table found
      rcases get_loadAll _ _ _ _ _ _ found with old | ⟨member, now⟩
      · exact sound.loaded alt table old
      · rcases Option.isSome_iff_exists.mp (AList.lookup_isSome.mpr member) with ⟨content, held⟩
        exact ⟨now, (sound.loaded alt content held).2⟩
  | restarted fetched =>
      exact {
        keyed := by
          intro id task found
          rw [step, HashMap.get_empty] at found
          cases found
        missed := by
          intro addresses impossible
          cases impossible
        staged := by
          intro id task found
          rw [step, HashMap.get_empty] at found
          cases found
        own := by
          intro first second one two alt found
          rw [step, HashMap.get_empty] at found
          cases found
        loaded := by
          intro alt table found
          rcases get_loadAll _ _ _ _ _ _ found with old | ⟨-, now⟩
          · rw [HashMap.get_empty] at old
            cases old
          · refine ⟨now, ?_⟩
            intro id task impossible
            rw [step, HashMap.get_empty] at impossible
            cases impossible
        written := by
          intro key alt found
          have file : HashMap.get state.persisted key = some alt := found.elim id id
          refine ⟨(sound.written key alt (Or.inr file)).1, ?_⟩
          intro id task impossible
          rw [step, HashMap.get_empty] at impossible
          cases impossible
        answered := sound.answered }

theorem sound_start (chain : HashMap Pubkey (List Pubkey)) : Sound hash among (start chain) where
  keyed := by simp [start]
  missed := by simp [start]
  staged := by simp [start]
  own := by simp [start]
  loaded := by simp [start]
  written := by simp [start, Written]
  answered := by simp [start]

end Sound

/-- The sets of keys that are asked for. -/
def askedOf : Event → Option (List Pubkey)
  | .ask addresses _ => some addresses
  | _ => none

/-- Whatever the threads, refreshes and restarts do, an answer's table lists every key that
was asked for, if no two sets that are asked for have one hash. -/
theorem answers_hold_keys (hash : List Pubkey → Nat) (known : List Pubkey)
    (chain : HashMap Pubkey (List Pubkey)) (events : List Event)
    (distinct : ∀ first ∈ events.filterMap askedOf, ∀ second ∈ events.filterMap askedOf,
      hashAddressSet hash first = hashAddressSet hash second → first.Perm second)
    (new : ∀ pair ∈ trace (step hash known) (start chain) events, ∀ id alt,
      pair.2 = .created id (some alt) → HashMap.get pair.1.chain alt = none) :
    ∀ answer ∈ (run (step hash known) (start chain) events).answers,
      ∀ key ∈ answer.asked, key ∈ answer.table := by
  have sound : Sound hash (· ∈ events.filterMap askedOf)
      (run (step hash known) (start chain) events) := by
    apply run_invariant (step hash known) (Sound hash (· ∈ events.filterMap askedOf))
    · exact sound_start hash _ chain
    · intro pair member before
      apply sound_step hash known _ _ _ before
      cases event : pair.2 with
      | ask addresses fetched =>
          have given := trace_input _ _ _ pair member
          exact List.mem_filterMap.mpr ⟨pair.2, given, by rw [event]; rfl⟩
      | created id answer =>
          cases answer with
          | some alt => exact new pair member id alt event
          | none => trivial
      | _ => trivial
  intro answer member key wanted
  rcases sound.answered answer member with ⟨asked, made, among, hashed, table⟩
  rw [table]
  exact mem_dedup made key ((distinct _ asked _ among hashed.symm).subset wanted)

/-! How many threads work for one set of keys. -/

/-- Every thread is on the list of pending creations, at most one for a hash. -/
structure Single (state : Cache) : Prop where
  fresh : ∀ id, state.nextTask ≤ id → HashMap.get state.tasks id = none
  pending : ∀ id task, HashMap.get state.tasks id = some task →
    HashMap.get state.pendingAltCreations task.key = some task.startedAt
  single : ∀ id other first second, HashMap.get state.tasks id = some first →
    HashMap.get state.tasks other = some second → first.key = second.key → id = other

/-- When a thread may be started, none has been at work for a minute. -/
def Prompt (state : Cache) : Event → Prop
  | .begin_ now => ∀ id task, HashMap.get state.tasks id = some task →
      now - task.startedAt < pendingWindow
  | _ => True

section Single

variable (hash : List Pubkey → Nat) (known : List Pubkey)

theorem single_stage (state next : Cache) (id : Nat) (task : Task) (stage : Stage)
    (single : Single state) (held : HashMap.get state.tasks id = some task)
    (tasks : next.tasks = state.tasks.insert id { task with stage := stage })
    (pending : next.pendingAltCreations = state.pendingAltCreations)
    (nextTask : next.nextTask = state.nextTask) : Single next := by
  have moved : ∀ other found, HashMap.get next.tasks other = some found →
      ∃ old, HashMap.get state.tasks other = some old ∧ found.key = old.key ∧
        found.startedAt = old.startedAt := by
    intro other found got
    rw [tasks] at got
    rcases get_tasks _ _ _ _ _ got with ⟨rfl, rfl⟩ | ⟨-, old⟩
    · exact ⟨task, held, rfl, rfl⟩
    · exact ⟨found, old, rfl, rfl⟩
  exact {
    fresh := by
      intro other above
      rw [nextTask] at above
      cases got : HashMap.get next.tasks other with
      | none => rfl
      | some found =>
          rcases moved other found got with ⟨old, before, -, -⟩
          rw [single.fresh other above] at before
          cases before
    pending := by
      intro other found got
      rcases moved other found got with ⟨old, before, key, startedAt⟩
      rw [pending, key, startedAt]
      exact single.pending other old before
    single := by
      intro first second one two gotOne gotTwo same
      rcases moved first one gotOne with ⟨oldOne, beforeOne, keyOne, -⟩
      rcases moved second two gotTwo with ⟨oldTwo, beforeTwo, keyTwo, -⟩
      exact single.single first second oldOne oldTwo beforeOne beforeTwo
        (keyOne.symm.trans (same.trans keyTwo)) }

theorem single_begin (state : Cache) (addresses : List Pubkey) (now : Instant)
    (single : Single state)
    (prompt : ∀ id task, HashMap.get state.tasks id = some task →
      now - task.startedAt < pendingWindow) :
    Single (begin_ hash state addresses now) := by
  have started : (∀ id task, HashMap.get state.tasks id = some task →
      task.key ≠ hashAddressSet hash addresses) → Single
      { state with
        phase := .idle
        pendingAltCreations :=
          state.pendingAltCreations.insert (hashAddressSet hash addresses) now
        tasks := state.tasks.insert state.nextTask
          ⟨hashAddressSet hash addresses, addresses, now, .creating⟩
        nextTask := state.nextTask + 1 } := by
    intro others
    exact {
      fresh := by
        intro id above
        have later : id ≠ state.nextTask := (Nat.lt_of_succ_le above).ne'
        rw [HashMap.get_insert_ne _ _ _ _ later]
        exact single.fresh id (Nat.le_of_succ_le above)
      pending := by
        intro id task found
        rcases get_tasks _ _ _ _ _ found with ⟨-, rfl⟩ | ⟨-, old⟩
        · exact HashMap.get_insert _ _ _
        · rw [HashMap.get_insert_ne _ _ _ _ (others id task old)]
          exact single.pending id task old
      single := by
        intro first second one two foundOne foundTwo same
        rcases get_tasks _ _ _ _ _ foundOne with ⟨sameOne, rfl⟩ | ⟨-, oldOne⟩
        · rcases get_tasks _ _ _ _ _ foundTwo with ⟨sameTwo, -⟩ | ⟨-, oldTwo⟩
          · rw [sameOne, sameTwo]
          · exact absurd same.symm (others second two oldTwo)
        · rcases get_tasks _ _ _ _ _ foundTwo with ⟨-, rfl⟩ | ⟨-, oldTwo⟩
          · exact absurd same (others first one oldOne)
          · exact single.single first second one two oldOne oldTwo same }
  unfold begin_
  dsimp only
  split
  · next since held =>
      split
      · exact ⟨single.fresh, single.pending, single.single⟩
      · next stale =>
          apply started
          intro id task found same
          have listed := single.pending id task found
          rw [same, held] at listed
          rw [Option.some.inj listed] at stale
          exact stale (prompt id task found)
  · next unlisted =>
      apply started
      intro id task found same
      have listed := single.pending id task found
      rw [same, unlisted] at listed
      cases listed

theorem single_cleared (state : Cache) (id : Nat) (task : Task) (single : Single state)
    (held : HashMap.get state.tasks id = some task) :
    Single { state with
      pendingAltCreations := state.pendingAltCreations.erase task.key
      tasks := state.tasks.erase id } := by
  have kept : ∀ other found, HashMap.get (state.tasks.erase id) other = some found →
      other ≠ id ∧ HashMap.get state.tasks other = some found := by
    intro other found got
    rw [HashMap.get_erase] at got
    split at got
    · cases got
    · next different => exact ⟨different, got⟩
  exact {
    fresh := by
      intro other above
      rw [HashMap.get_erase]
      split
      · rfl
      · exact single.fresh other above
    pending := by
      intro other found got
      rcases kept other found got with ⟨different, old⟩
      have apart : found.key ≠ task.key := by
        intro same
        exact different (single.single other id found task old held same)
      rw [HashMap.get_erase, if_neg apart]
      exact single.pending other found old
    single := fun first second one two gotOne gotTwo =>
      single.single first second one two (kept _ _ gotOne).2 (kept _ _ gotTwo).2 }

theorem single_ask (state : Cache) (addresses : List Pubkey) (fetched : Bool)
    (single : Single state) : Single (ask hash state addresses fetched) := by
  have same : ∀ next : Cache, next.tasks = state.tasks → next.nextTask = state.nextTask →
      next.pendingAltCreations = state.pendingAltCreations → Single next := by
    intro next tasks nextTask pending
    refine ⟨?_, ?_, ?_⟩
    · rw [tasks, nextTask]
      exact single.fresh
    · rw [tasks, pending]
      exact single.pending
    · rw [tasks]
      exact single.single
  unfold ask
  split
  · dsimp only
    split
    · exact same _ rfl rfl rfl
    · exact same _ rfl rfl rfl
  · exact same _ rfl rfl rfl

theorem single_step (state : Cache) (event : Event) (single : Single state)
    (prompt : Prompt state event) : Single (step hash known state event) := by
  cases event with
  | ask addresses fetched =>
      rw [step]
      split
      · exact single_ask hash state addresses fetched single
      · exact single
  | begin_ now =>
      rw [step]
      split
      · exact single_begin hash state _ now single prompt
      · exact single
  | created id answer =>
      rw [step]
      split
      · next task held =>
          split
          · split
            · exact single_stage state _ id task _ single held rfl rfl rfl
            · exact single_stage state _ id task _ single held rfl rfl rfl
          · exact single_stage state _ id task _ single held rfl rfl rfl
          · exact single
      · exact single
  | extended id confirmed =>
      rw [step]
      split
      · next task held =>
          split
          · split
            · exact single_stage state _ id task _ single held rfl rfl rfl
            · exact single_stage state _ id task _ single held rfl rfl rfl
          · exact single
      · exact single
  | polled id ready =>
      rw [step]
      split
      · next task held =>
          split
          · split
            · split
              · exact single_stage state _ id task _ single held rfl rfl rfl
              · exact single
            · exact single_stage state _ id task _ single held rfl rfl rfl
          · exact single
      · exact single
  | stored id fetched =>
      rw [step]
      split
      · next task held =>
          split
          · exact single_stage state _ id task _ single held rfl rfl rfl
          · exact single
      · exact single
  | mapped id =>
      rw [step]
      split
      · next task held =>
          split
          · exact single_stage state _ id task _ single held rfl rfl rfl
          · exact single
      · exact single
  | written id saved =>
      rw [step]
      split
      · next task held =>
          split
          · exact single_stage state _ id task _ single held rfl rfl rfl
          · exact single
      · exact single
  | cleared id =>
      rw [step]
      split
      · next task held =>
          split
          · exact single_cleared state id task single held
          · exact single
      · exact single
  | refreshed fetched => exact ⟨single.fresh, single.pending, single.single⟩
  | restarted fetched =>
      refine ⟨fun id _ => HashMap.get_empty id, ?_, ?_⟩
      · intro id task found
        rw [step, HashMap.get_empty] at found
        cases found
      · intro first second one two found
        rw [step, HashMap.get_empty] at found
        cases found

end Single

/-! A table for two keys, from the first question to its answer. -/

def numberOf (keys : List Pubkey) : Nat := Nat.ofDigits (2 ^ 256) (keys.map Pubkey.toNat)

def tableKeys : List Pubkey := [.ofNat 1, .ofNat 2]

def firstTable : List Event :=
  [.ask tableKeys true, .begin_ (RouteDedup.seconds 1), .created 0 (some (.ofNat 9)),
    .extended 0 true, .polled 0 true, .stored 0 true, .mapped 0, .written 0 true, .cleared 0,
    .restarted (fun _ => true), .ask tableKeys true]

theorem firstTable_new (pair : Cache × Event)
    (member : pair ∈ trace (step numberOf []) (start HashMap.empty) firstTable) (id : Nat)
    (alt : Pubkey) (same : pair.2 = .created id (some alt)) :
    HashMap.get pair.1.chain alt = none := by
  simp only [firstTable, trace, List.mem_cons, List.not_mem_nil, or_false] at member
  rcases member with rfl | rfl | rfl | rfl | rfl | rfl | rfl | rfl | rfl | rfl | rfl
  all_goals cases same
  exact HashMap.get_empty _

theorem firstTable_prompt (pair : Cache × Event)
    (member : pair ∈ trace (step numberOf []) (start HashMap.empty) firstTable) :
    Prompt pair.1 pair.2 := by
  simp only [firstTable, trace, List.mem_cons, List.not_mem_nil, or_false] at member
  rcases member with rfl | rfl | rfl | rfl | rfl | rfl | rfl | rfl | rfl | rfl | rfl
  all_goals first | trivial | skip
  intro id task found
  change HashMap.get HashMap.empty id = some task at found
  rw [HashMap.get_empty] at found
  cases found

theorem answers_hold_keys_firstTable :
    (run (step numberOf []) (start HashMap.empty) firstTable).answers.length = 1 ∧
      ∀ answer ∈ (run (step numberOf []) (start HashMap.empty) firstTable).answers,
        ∀ key ∈ answer.asked, key ∈ answer.table := by
  refine ⟨by decide +kernel, ?_⟩
  apply answers_hold_keys numberOf [] HashMap.empty firstTable _ firstTable_new
  intro first inFirst second inSecond _
  simp only [firstTable, askedOf, List.filterMap_cons, List.filterMap_nil, List.mem_cons,
    List.not_mem_nil, or_false, or_self] at inFirst inSecond
  rw [inFirst, inSecond]

end Helios.AltCache
