import Mathlib.Data.List.Sort
import Mathlib.Data.String.Basic
import CodexRemote.Restore
import CodexRemote.Workspace

/-!
# Child agents, live and after a restart

`applyCollabAgentItem` and `restoreCollabAgents` of `internal/codex/workspace.go`. A
collaboration tool call names child threads and reports the states of some of them. Live,
every item is applied to what was observed of its children before: an ended child stays
ended until a `resumeAgent` call of another item, and a state that is neither active nor
terminal is ignored. After a restart the same items are read as history and only the last
reported state of each child counts.

Children do not influence each other, so each of the two readings is a function of the
reports about one child, in their order. The two are compared there. The transitions an
item asks of the workspace are taken to succeed; `moveAgent` is what they do to its set of
agents.
-/
namespace CodexRemote.Collab

open Codexes Workspace List Option
open List (foldl_cons mem_cons_self pairwise_cons)

variable {status : String} {latest : List (String × String)}

/-- A collaboration item with the fields that only the live path reads. -/
structure CollabToolCall extends CollabAgentItem where
  tool : String
  senderThreadID : String := ""
  deriving DecidableEq

def collabAgentTerminal (status : String) : Bool :=
  status = "interrupted" || status = "completed" || status = "errored" ||
    status = "shutdown" || status = "notFound"

/-- The `workspaceChildObservation` of a child; the zero value stands for none. -/
structure ChildObservation where
  itemID : String := ""
  terminal : Bool := false
  deriving DecidableEq

/-- The Manager's two maps of child threads, and the agents of every Codex's workspace. -/
structure Children where
  codexOf : String → String := fun _ => ""
  observed : String → ChildObservation := fun _ => {}
  agents : String → Finset String := fun _ => ∅

/-- `item.AgentsStates[child]`. -/
def statusOf (item : CollabAgentItem) (child : String) : Option String :=
  (item.agentsStates.find? fun state => state.1 = child).map Prod.snd

/-- The children an item names, in order and once each. -/
def uniqueChildren (item : CollabAgentItem) : List String :=
  (((item.receiverThreadIDs ++ item.agentsStates.map Prod.fst).filter
    fun child => child ≠ "").insertionSort (· ≤ ·)).dedup

def agentOf (child : String) : String := "subagent:" ++ child

/-- What `WorkspaceAgentStarted` and `WorkspaceAgentStopped` do to a set of agents. -/
def moveAgent (started : Bool) (agent : String) (agents : Finset String) : Finset String :=
  if started then insert agent agents else agents.erase agent

/-- A terminal child is not revived by an active state, except by the call that resumes
it. -/
def barred (observation : ChildObservation) (itemID tool status : String) : Bool :=
  observation.terminal && collabAgentActive status &&
    (tool ≠ "resumeAgent" || observation.itemID = itemID)

/-- The body of the loop over the children of an item. -/
def observeChild (codexID : String) (item : CollabToolCall) (live : Children)
    (child : String) : Children :=
  let live := { live with codexOf := Function.update live.codexOf child codexID }
  match statusOf item.toCollabAgentItem child with
  | none => live
  | some status =>
      if !collabAgentActive status && !collabAgentTerminal status then live
      else if barred (live.observed child) item.itemID item.tool status then live
      else
        { live with
          observed := Function.update live.observed child
            { itemID := item.itemID, terminal := collabAgentTerminal status }
          agents := Function.update live.agents codexID
            (moveAgent (collabAgentActive status) (agentOf child) (live.agents codexID)) }

/-- `applyCollabAgentItem` for an item that was announced in `threadID`. The sender is
looked up among the registered threads and then among the children. -/
def applyCollabAgentItem (byThread : String → String) (threadID : String) (live : Children)
    (item : CollabToolCall) : Children :=
  let sender := if item.senderThreadID = "" then threadID else item.senderThreadID
  let codexID := if byThread sender = "" then live.codexOf sender else byThread sender
  if codexID = "" then live
  else (uniqueChildren item.toCollabAgentItem).foldl (observeChild codexID item) live

/-- The entries of one item of the history into the map `latest`. -/
def enterItem (latest : String → Option (String × String)) (item : CollabAgentItem) :
    String → Option (String × String) :=
  (reportedChildren item).foldl
    (fun latest child => Function.update latest child.1 (some (item.itemID, child.2))) latest

/-- The map `latest` of `restoreCollabAgents`: item and status of the last report. -/
def latestReports (thread : Thread) : String → Option (String × String) :=
  (thread.turns.flatMap ThreadTurn.collab).foldl enterItem fun _ => none

/-- `restoreCollabAgents` on the empty maps of a Host that has just started. -/
def restoredChildren (codexID : String) (thread : Thread) : Children :=
  { codexOf := fun child => if (latestReports thread child).isSome then codexID else ""
    observed := fun child => match latestReports thread child with
      | none => {}
      | some (itemID, status) => { itemID := itemID, terminal := collabAgentTerminal status }
    agents := Function.update (fun _ => ∅) codexID (restoreCollabAgents thread).toFinset }

/-! ## The agents of a workspace -/

/-- `moveAgent` is the set of agents that a transition of the workspace leaves. -/
theorem transition_agentIDs (ws : WorkspaceState) (agent : String) (started : Bool)
    (lane : Nat) (token : String) (now : Int) :
    (transition ws agent started lane token now).1.agentIDs =
      moveAgent started agent ws.agentIDs := by
  cases started with
  | true =>
    by_cases present : agent ∈ ws.agentIDs
    · simp [transition, moveAgent, present]
    · simp [transition, moveAgent, present, WorkspaceState.withAgents]
  | false =>
    by_cases present : agent ∈ ws.agentIDs
    · simp [transition, moveAgent, present, WorkspaceState.withAgents]
    · simp [transition, moveAgent, present]

/-- Restoring agents one after another adds exactly them. -/
theorem restoreAgent_agentIDs {agents : List String} (named : ∀ agent ∈ agents, agent ≠ "")
    (ws : WorkspaceState) (now : Int) :
    (agents.foldl (fun ws agent => restoreAgent ws agent now) ws).agentIDs =
      agents.toFinset ∪ ws.agentIDs := by
  induction agents generalizing ws with
  | nil => simp
  | cons agent rest later =>
    have entered : (restoreAgent ws agent now).agentIDs = insert agent ws.agentIDs := by
      have nonempty : agent ≠ "" := named agent mem_cons_self
      by_cases present : agent ∈ ws.agentIDs
      · simp [restoreAgent, restoredName, nonempty, present]
      · simp [restoreAgent, restoredName, nonempty, present, WorkspaceState.withAgents]
    have others : ∀ other ∈ rest, other ≠ "" :=
      fun other member => named other (mem_cons_of_mem agent member)
    rw [foldl_cons, later others, entered, toFinset_cons]
    ext other
    simp only [Finset.mem_union, Finset.mem_insert]
    tauto

/-- The agents that the model of a restart has for the Codex are those its workspace then has,
beside what it had. -/
theorem restored_entered (codexID : String) (thread : Thread) (ws : WorkspaceState) (now : Int) :
    ((restoreCollabAgents thread).foldl (fun ws agent => restoreAgent ws agent now)
        ws).agentIDs =
      (restoredChildren codexID thread).agents codexID ∪ ws.agentIDs := by
  have named : ∀ agent ∈ restoreCollabAgents thread, agent ≠ "" := by
    intro agent member
    obtain ⟨child, -, active⟩ := mem_filterMap.mp member
    split at active
    · rw [← some.inj active]
      simp
    · cases active
  rw [restoreAgent_agentIDs named]
  simp [restoredChildren]

variable (codexID : String) (item : CollabToolCall)

/-! ## One child -/

/-- What an item says about one child. -/
structure Report where
  itemID : String
  tool : String
  status : String
  deriving DecidableEq

/-- What is known about one child: the observation, and whether it is an active agent. -/
structure Child where
  observation : ChildObservation := {}
  active : Bool := false
  deriving DecidableEq

/-- A report whose status the source does not know. -/
def Report.unknown (report : Report) : Bool :=
  !collabAgentActive report.status && !collabAgentTerminal report.status

/-- The live rule for one child. -/
def Child.hear (child : Child) (report : Report) : Child :=
  if report.unknown then child
  else if barred child.observation report.itemID report.tool report.status then child
  else
    { observation := { itemID := report.itemID
                       terminal := collabAgentTerminal report.status }
      active := collabAgentActive report.status }

/-- A child after all its reports. -/
def heard (reports : List Report) : Child := reports.foldl Child.hear {}

/-- The report of one item about a child. -/
def reportOf (child : String) (item : CollabToolCall) : Option Report :=
  if child = "" then none
  else (statusOf item.toCollabAgentItem child).map fun status =>
    { itemID := item.itemID, tool := item.tool, status := status }

/-- The reports of a list of items about a child. -/
def reportsOf (child : String) (items : List CollabToolCall) : List Report :=
  items.filterMap (reportOf child)

/-- One child in the maps. -/
def Children.child (children : Children) (codexID child : String) : Child :=
  { observation := children.observed child
    active := decide (agentOf child ∈ children.agents codexID) }

theorem agentOf_inj : agentOf one = agentOf other ↔ one = other := by
  simp [agentOf]

theorem heard_concat (before : List Report) (last : Report) :
    heard (before ++ [last]) = (heard before).hear last := by
  simp [heard]

/-- No status is both active and terminal. -/
theorem not_terminal_of_active (active : collabAgentActive status = true) :
    collabAgentTerminal status = false := by
  rcases Bool.or_eq_true _ _ |>.mp active with same | same
  · rw [of_decide_eq_true same]
    decide
  · rw [of_decide_eq_true same]
    decide

/-- The loop body does nothing to the other children. -/
theorem observeChild_other (live : Children) (different : other ≠ child) :
    (observeChild codexID item live child).child codexID other = live.child codexID other := by
  have elsewhere : agentOf other ≠ agentOf child := mt agentOf_inj.mp different
  simp only [observeChild]
  split
  · rfl
  split
  · rfl
  split
  · rfl
  simp only [Children.child, Function.update_of_ne different, Function.update_self, moveAgent]
  split
  · simp [elsewhere]
  · simp [elsewhere]

variable {child : String} {items : List CollabToolCall}

/-- To its own child the loop body brings the report. -/
theorem observeChild_self (live : Children)
    (named : child ≠ "") :
    (observeChild codexID item live child).child codexID child =
      (reportOf child item).elim (live.child codexID child)
        (live.child codexID child).hear := by
  have seen : (live.child codexID child).observation = live.observed child := rfl
  simp only [observeChild, reportOf, if_neg named]
  cases statusOf item.toCollabAgentItem child with
  | none => rfl
  | some status =>
    simp only [map_some, elim_some, Child.hear, Report.unknown, seen]
    split
    · rfl
    split
    · rfl
    · cases active : collabAgentActive status with
      | true | false => simp [Children.child, moveAgent]

/-- The children of an item include each one it reports about. -/
theorem mem_uniqueChildren (item : CollabAgentItem) (child : String) :
    child ∈ uniqueChildren item ↔
      child ≠ "" ∧ (child ∈ item.receiverThreadIDs ∨
        child ∈ item.agentsStates.map Prod.fst) := by
  simp only [uniqueChildren, mem_dedup, mem_insertionSort, mem_filter,
    mem_append, decide_eq_true_eq]
  tauto

/-- A child without a place among the children of an item is not reported about. -/
theorem reportOf_of_not_mem {item : CollabToolCall}
    (absent : child ∉ uniqueChildren item.toCollabAgentItem) : reportOf child item = none := by
  by_cases nameless : child = ""
  · simp [reportOf, nameless]
  have keyless : child ∉ item.agentsStates.map Prod.fst := fun key =>
    absent ((mem_uniqueChildren _ _).mpr ⟨nameless, .inr key⟩)
  have nothing : item.agentsStates.find? (fun state => state.1 = child) = none := by
    rw [find?_eq_none]
    intro state member same
    have here : state.1 = child := of_decide_eq_true same
    exact keyless (here ▸ mem_map_of_mem member)
  simp [reportOf, nameless, statusOf, nothing]

/-- The loop over distinct children: each of them hears its report once. -/
theorem observeChildren_child (child : String)
    {children : List String} (distinct : children.Nodup) (named : ∀ one ∈ children, one ≠ "")
    (live : Children) :
    (children.foldl (observeChild codexID item) live).child codexID child =
      if child ∈ children then
        (reportOf child item).elim (live.child codexID child) (live.child codexID child).hear
      else live.child codexID child := by
  induction children generalizing live with
  | nil => rfl
  | cons first rest later =>
    have fresh : first ∉ rest := (nodup_cons.mp distinct).1
    have others : ∀ one ∈ rest, one ≠ "" :=
      fun one member => named one (mem_cons_of_mem first member)
    rw [foldl_cons, later (nodup_cons.mp distinct).2 others]
    by_cases same : child = first
    · subst same
      rw [if_neg fresh, if_pos mem_cons_self,
        observeChild_self codexID item live (named child mem_cons_self)]
    · have moved : child ∈ first :: rest ↔ child ∈ rest := by simp [same]
      rw [observeChild_other codexID item live same]
      simp only [moved]

/-- An item of a registered thread is heard by each child it reports about. -/
theorem applyCollabAgentItem_child {codexID : String} (registered : byThread threadID = codexID)
    (known : codexID ≠ "") {item : CollabToolCall}
    (own : item.senderThreadID = "" ∨ item.senderThreadID = threadID) (live : Children)
    (child : String) :
    (applyCollabAgentItem byThread threadID live item).child codexID child =
      (reportOf child item).elim (live.child codexID child)
        (live.child codexID child).hear := by
  have sender : (if item.senderThreadID = "" then threadID else item.senderThreadID) =
      threadID := by
    rcases own with unnamed | same
    · rw [if_pos unnamed]
    · rw [same, ite_self]
  have distinct : (uniqueChildren item.toCollabAgentItem).Nodup := nodup_dedup _
  have named : ∀ one ∈ uniqueChildren item.toCollabAgentItem, one ≠ "" :=
    fun one member => ((mem_uniqueChildren _ _).mp member).1
  simp only [applyCollabAgentItem, sender, registered, if_neg known]
  rw [observeChildren_child codexID item child distinct named]
  split
  · rfl
  · rename_i absent
    rw [reportOf_of_not_mem absent]
    rfl

/-- The live maps after a list of items, child by child. -/
theorem applied_child {codexID : String} (registered : byThread threadID = codexID)
    (known : codexID ≠ "")
    (own : ∀ item ∈ items, item.senderThreadID = "" ∨ item.senderThreadID = threadID)
    (child : String) (live : Children) :
    (items.foldl (applyCollabAgentItem byThread threadID) live).child codexID child =
      (reportsOf child items).foldl Child.hear (live.child codexID child) := by
  induction items generalizing live with
  | nil => rfl
  | cons item rest later =>
    have others := fun one member => own one (mem_cons_of_mem item member)
    have step := applyCollabAgentItem_child registered known (own item mem_cons_self)
      live child
    rw [foldl_cons, later others, step, reportsOf, reportsOf, filterMap_cons]
    cases reportOf child item with
    | none | some report => rfl

/-! ## The last report -/

/-- The pairs an item is read as: its children with their states. -/
theorem mem_reportedChildren (item : CollabAgentItem) (child status : String) :
    (child, status) ∈ reportedChildren item ↔ child ≠ "" ∧ statusOf item child = some status := by
  simp only [reportedChildren, mem_filterMap, mem_append]
  constructor
  · rintro ⟨one, -, found⟩
    split at found
    · cases found
    rename_i named
    obtain ⟨state, there, same⟩ := map_eq_some_iff.mp found
    cases same
    exact ⟨named, by rw [statusOf, there]; rfl⟩
  · rintro ⟨named, reported⟩
    obtain ⟨state, there, rfl⟩ := map_eq_some_iff.mp reported
    have key : state.1 = child := of_decide_eq_true (find?_some there :)
    have member : state.1 ∈ item.agentsStates.map Prod.fst :=
      mem_map_of_mem (mem_of_find?_eq_some there)
    refine ⟨child, .inr (key ▸ member), ?_⟩
    rw [if_neg named, there]
    rfl

/-- The inner loop over pairs that all stem from one item. -/
theorem updates_apply {item : CollabAgentItem} (child : String) {pairs : List (String × String)}
    (stem : ∀ pair ∈ pairs, statusOf item pair.1 = some pair.2)
    (latest : String → Option (String × String)) :
    pairs.foldl (fun (latest : String → Option (String × String)) pair =>
        Function.update latest pair.1 (some (item.itemID, pair.2))) latest child =
      if child ∈ pairs.map Prod.fst then
        (statusOf item child).map fun status => (item.itemID, status)
      else latest child := by
  induction pairs generalizing latest with
  | nil => rfl
  | cons first rest later =>
    rw [foldl_cons, later fun pair member => stem pair (mem_cons_of_mem first member)]
    by_cases again : child ∈ rest.map Prod.fst
    · simp [again]
    by_cases same : child = first.1
    · subst same
      simp [again, stem first mem_cons_self]
    · simp [again, same]

/-- One item of the history enters exactly its reports. -/
theorem enterItem_apply (child : String)
    (latest : String → Option (String × String)) :
    enterItem latest item.toCollabAgentItem child =
      ((reportOf child item).map fun report => (report.itemID, report.status)).or
        (latest child) := by
  have stem : ∀ pair ∈ reportedChildren item.toCollabAgentItem,
      statusOf item.toCollabAgentItem pair.1 = some pair.2 :=
    fun pair member => ((mem_reportedChildren _ pair.1 pair.2).mp member).2
  have entered : child ∈ (reportedChildren item.toCollabAgentItem).map Prod.fst ↔
      child ≠ "" ∧ (statusOf item.toCollabAgentItem child).isSome := by
    simp [mem_reportedChildren, isSome_iff_exists]
  rw [enterItem, updates_apply child stem]
  simp only [entered, reportOf]
  by_cases nameless : child = ""
  · simp [nameless]
  · cases reported : statusOf item.toCollabAgentItem child with
    | none => simp
    | some status => simp [nameless]

/-- What the history leaves in the map is the last report about each child. -/
theorem latestReports_apply (history : thread.turns.flatMap ThreadTurn.collab =
      items.map CollabToolCall.toCollabAgentItem) (child : String) :
    latestReports thread child =
      (reportsOf child items).getLast?.map fun report => (report.itemID, report.status) := by
  rw [latestReports, history, foldl_map]
  clear history
  induction items using reverseRecOn with
  | nil => rfl
  | append_singleton before item earlier =>
    rw [foldl_append, foldl_cons, foldl_nil, enterItem_apply, earlier]
    simp only [reportsOf, filterMap_append]
    cases reported : reportOf child item with
    | none | some report => simp [reported]

/-- A sorted list of children that holds what the map holds. -/
def Lists (latest : List (String × String)) (map : String → Option (String × String)) : Prop :=
  latest.Pairwise (fun one other => one.1 < other.1) ∧
    ∀ child status, (child, status) ∈ latest ↔ (map child).map Prod.snd = some status

/-- Entering a child replaces what was listed for it and leaves the others. -/
theorem mem_putChild (sorted : latest.Pairwise fun one other => one.1 < other.1)
    (other reported : String) :
    (other, reported) ∈ putChild child status latest ↔
      if other = child then reported = status else (other, reported) ∈ latest := by
  induction latest with
  | nil => by_cases same : other = child <;> simp [putChild, same]
  | cons first rest later =>
    obtain ⟨name, old⟩ := first
    obtain ⟨below, tail⟩ := pairwise_cons.mp sorted
    -- A child at or before the first name is not listed further on.
    have absent : child ≤ name → ∀ reported, (child, reported) ∉ rest :=
      fun low reported member => absurd (below _ member) (not_lt.mpr low)
    unfold putChild
    by_cases same : child = name
    · have gone := absent (le_of_eq same)
      subst same
      rw [if_pos rfl]
      by_cases here : other = child
      · subst here
        simp [gone]
      · simp [here]
    · rw [if_neg same]
      by_cases before : child < name
      · have gone := absent (le_of_lt before)
        rw [if_pos before]
        by_cases here : other = child
        · subst here
          simp [gone, same]
        · simp [here]
      · rw [if_neg before, mem_cons, later tail]
        by_cases here : other = child
        · subst here
          simp [same]
        · simp [here]

/-- Entering a child keeps the order. -/
theorem putChild_sorted (sorted : latest.Pairwise fun one other => one.1 < other.1) :
    (putChild child status latest).Pairwise fun one other => one.1 < other.1 := by
  induction latest with
  | nil => simp [putChild]
  | cons first rest later =>
    obtain ⟨name, old⟩ := first
    obtain ⟨below, tail⟩ := pairwise_cons.mp sorted
    unfold putChild
    by_cases same : child = name
    · subst same
      rw [if_pos rfl]
      exact pairwise_cons.mpr ⟨below, tail⟩
    · rw [if_neg same]
      by_cases before : child < name
      · rw [if_pos before]
        refine pairwise_cons.mpr ⟨?_, sorted⟩
        intro pair member
        rcases mem_cons.mp member with rfl | member
        · exact before
        · exact lt_trans before (below pair member)
      · rw [if_neg before]
        refine pairwise_cons.mpr ⟨?_, later tail⟩
        rintro ⟨other, reported⟩ member
        have placed := (mem_putChild tail other reported).mp member
        split at placed
        · rename_i here
          subst here
          exact lt_of_le_of_ne (not_lt.mp before) (Ne.symm same)
        · exact below _ placed

/-- The list and the map take a report alike. -/
theorem Lists.put {map : String → Option (String × String)} (lists : Lists latest map)
    (child itemID status : String) :
    Lists (putChild child status latest)
      (Function.update map child (some (itemID, status))) := by
  refine ⟨putChild_sorted lists.1, fun other reported => ?_⟩
  rw [mem_putChild lists.1]
  by_cases same : other = child
  · subst same
    simp [eq_comm]
  · simp [same, lists.2 other reported]

/-- The sorted list of the restoration agrees with the map. -/
theorem latestChildren_lists (thread : Thread) :
    Lists (latestChildren thread) (latestReports thread) := by
  refine foldl_rel ⟨List.Pairwise.nil, fun child status => by simp⟩ ?_
  intro item _ latest map lists
  refine foldl_rel lists ?_
  intro pair _ latest map lists
  exact lists.put pair.1 item.itemID pair.2

/-- What a restart remembers about a child. -/
def remembered (reports : List Report) : Child :=
  match reports.getLast? with
  | none => {}
  | some last =>
      { observation := { itemID := last.itemID, terminal := collabAgentTerminal last.status }
        active := collabAgentActive last.status }

/-- The restored maps, child by child. -/
theorem restored_child (history : thread.turns.flatMap ThreadTurn.collab =
      items.map CollabToolCall.toCollabAgentItem) (codexID child : String) :
    (restoredChildren codexID thread).child codexID child =
      remembered (reportsOf child items) := by
  have last := latestReports_apply history child
  have listed : agentOf child ∈ restoreCollabAgents thread ↔
      ∃ status, (latestReports thread child).map Prod.snd = some status ∧
        collabAgentActive status = true := by
    simp only [restoreCollabAgents, mem_filterMap]
    constructor
    · rintro ⟨⟨other, status⟩, member, active⟩
      split at active
      · rename_i running
        have same : other = child := agentOf_inj.mp (some.inj active)
        subst same
        exact ⟨status, ((latestChildren_lists thread).2 other status).mp member, running⟩
      · cases active
    · rintro ⟨status, reported, running⟩
      refine ⟨(child, status), ((latestChildren_lists thread).2 child status).mpr reported, ?_⟩
      rw [if_pos running]
      rfl
  simp only [Children.child, restoredChildren, Function.update_self, List.mem_toFinset, listed,
    last, remembered]
  cases (reportsOf child items).getLast? with
  | none | some report => simp

/-! ## The two readings compared -/

/-- The two readings of a child that count. -/
def Agree (one other : Child) : Prop :=
  one.active = other.active ∧ one.observation.terminal = other.observation.terminal

/-- The last report about a child stands: it was not barred when it came, and if its status
is unknown, nothing known was reported before. -/
def LastStands (reports : List Report) : Prop :=
  ∀ last ∈ reports.getLast?,
    if last.unknown then ∀ report ∈ reports.dropLast, report.unknown = true
    else barred (heard reports.dropLast).observation last.itemID last.tool last.status = false

instance (reports : List Report) : Decidable (LastStands reports) :=
  inferInstanceAs (Decidable (∀ last ∈ reports.getLast?, _))

/-- A child about which nothing known was reported is as if never mentioned. -/
theorem heard_of_unknown (unknown : ∀ report ∈ reports, report.unknown = true) :
    heard reports = {} := by
  induction reports using reverseRecOn with
  | nil => rfl
  | append_singleton before last earlier =>
    have quiet : last.unknown = true := unknown last (by simp)
    rw [heard_concat, earlier fun report member => unknown report (by simp [member]),
      Child.hear, if_pos quiet]

/-- Once something known was reported, a child is active or ended. -/
theorem heard_of_known (known : ∃ report ∈ reports, report.unknown = false) :
    (heard reports).active = true ∨ (heard reports).observation.terminal = true := by
  induction reports using reverseRecOn with
  | nil =>
    obtain ⟨report, member, -⟩ := known
    exact absurd member not_mem_nil
  | append_singleton before last earlier =>
    rw [heard_concat, Child.hear]
    by_cases quiet : last.unknown = true
    · rw [if_pos quiet]
      apply earlier
      obtain ⟨report, member, heard⟩ := known
      rcases mem_append.mp member with there | there
      · exact ⟨report, there, heard⟩
      · rw [mem_singleton.mp there, quiet] at heard
        cases heard
    · rw [if_neg quiet]
      split
      · rename_i stuck
        -- Only an ended child bars a report.
        simp only [barred, Bool.and_eq_true] at stuck
        exact .inr stuck.1.1
      · simp only [Report.unknown, Bool.and_eq_true, Bool.not_eq_true', not_and,
          Bool.not_eq_false] at quiet
        cases active : collabAgentActive last.status with
        | true => exact .inl rfl
        | false => exact .inr (quiet active)

/-- For one child: both readings agree exactly when its last report stands. -/
theorem agree_iff (reports : List Report) :
    Agree (heard reports) (remembered reports) ↔ LastStands reports := by
  induction reports using reverseRecOn with
  | nil => simp [Agree, heard, remembered, LastStands]
  | append_singleton before last _ =>
    simp only [heard_concat, remembered, LastStands, getLast?_concat,
      dropLast_concat, mem_some_iff, forall_eq']
    rw [Child.hear]
    by_cases quiet : last.unknown = true
    · have silent := quiet
      simp only [Report.unknown, Bool.and_eq_true, Bool.not_eq_true'] at silent
      rw [if_pos quiet, if_pos quiet, Agree, silent.1, silent.2]
      constructor
      · intro blank report member
        by_contra loud
        rcases heard_of_known ⟨report, member, by simpa using loud⟩ with on | ended
        · exact Bool.false_ne_true (blank.1.symm.trans on)
        · exact Bool.false_ne_true (blank.2.symm.trans ended)
      · intro unknown
        rw [heard_of_unknown unknown]
        exact ⟨rfl, rfl⟩
    · rw [if_neg quiet, if_neg quiet]
      cases stuck : barred (heard before).observation last.itemID last.tool last.status with
      | true =>
        simp only [barred, Bool.and_eq_true] at stuck
        have ended := stuck.1.1
        have revived := not_terminal_of_active stuck.1.2
        simp [Agree, ended, revived]
      | false => simp [Agree]

/-- The children of a Codex that its workspace counts as active agents. -/
def Children.activeChildren (children : Children) (codexID : String) : Set String :=
  { child | agentOf child ∈ children.agents codexID }

/-- Applying the items of a registered thread live, and reading them as history after a
restart, agree on the active children and on the terminal flags if and only if the last
report about every child stands. -/
theorem restart_agrees_iff (byThread : String → String) (threadID codexID : String)
    (registered : byThread threadID = codexID) (known : codexID ≠ "")
    (items : List CollabToolCall)
    (own : ∀ item ∈ items, item.senderThreadID = "" ∨ item.senderThreadID = threadID)
    (thread : Thread)
    (history : thread.turns.flatMap ThreadTurn.collab =
      items.map CollabToolCall.toCollabAgentItem) :
    ((items.foldl (applyCollabAgentItem byThread threadID) {}).activeChildren codexID =
        (restoredChildren codexID thread).activeChildren codexID ∧
      ∀ child,
        ((items.foldl (applyCollabAgentItem byThread threadID) {}).observed child).terminal =
          ((restoredChildren codexID thread).observed child).terminal) ↔
      ∀ child, LastStands (reportsOf child items) := by
  have readings : ∀ child, Agree
      ((items.foldl (applyCollabAgentItem byThread threadID) {}).child codexID child)
      ((restoredChildren codexID thread).child codexID child) ↔
        LastStands (reportsOf child items) := by
    intro child
    have live := applied_child registered known own child {}
    have blank : Children.child {} codexID child = {} := rfl
    rw [live, blank, restored_child history codexID child]
    exact agree_iff (reportsOf child items)
  have active : ∀ children : Children, ∀ child,
      child ∈ children.activeChildren codexID ↔ (children.child codexID child).active = true :=
    fun children child => by simp [Children.activeChildren, Children.child]
  constructor
  · rintro ⟨sameActive, sameTerminal⟩ child
    refine (readings child).mp ⟨?_, sameTerminal child⟩
    rw [Bool.eq_iff_iff, ← active, ← active, sameActive]
  · intro stands
    refine ⟨Set.ext fun child => ?_, fun child => ((readings child).mpr (stands child)).2⟩
    rw [active, active, ((readings child).mpr (stands child)).1]

/-- One call of thread `t` about its child `c`. -/
def callAbout (itemID tool status : String) : CollabToolCall :=
  { itemID := itemID, receiverThreadIDs := ["c"], agentsStates := [("c", status)]
    tool := tool, senderThreadID := "t" }

/-- The history that holds some calls in one turn. -/
def historyOf (items : List CollabToolCall) : Thread :=
  { turns := [{ turnID := "turn", status := .completed
                collab := items.map CollabToolCall.toCollabAgentItem }] }

/-- The only thread with a Codex. -/
def onlyThread (threadID : String) : String := if threadID = "t" then "x" else ""

/-- A child that is spawned, ends, and is resumed is running in both readings. -/
theorem restart_agrees_resumed :
    let items := [callAbout "1" "spawnAgent" "running", callAbout "2" "wait" "completed",
      callAbout "3" "resumeAgent" "running"]
    let live := items.foldl (applyCollabAgentItem onlyThread "t") {}
    let restored := restoredChildren "x" (historyOf items)
    "c" ∈ live.activeChildren "x" ∧ live.activeChildren "x" = restored.activeChildren "x" ∧
      ∀ child, (live.observed child).terminal = (restored.observed child).terminal := by
  intro items live restored
  have running : agentOf "c" ∈ live.agents "x" := by decide +kernel
  refine ⟨running, (restart_agrees_iff onlyThread "t" "x" (by decide) (by decide) items
    (by decide) (historyOf items) rfl).mpr fun child => ?_⟩
  by_cases here : child = "c"
  · subst here
    decide +kernel
  have nothing : reportsOf child items = [] := by
    simp [items, reportsOf, reportOf, statusOf, callAbout, Ne.symm here]
  rw [nothing]
  decide

/-- A child that ended, with a late call that still shows it running: live it stays ended
and inactive; after a restart it is an active agent without the terminal flag. -/
theorem restart_revives_ended_child :
    let items := [callAbout "1" "spawnAgent" "running", callAbout "2" "wait" "completed",
      callAbout "3" "wait" "running"]
    let live := items.foldl (applyCollabAgentItem onlyThread "t") {}
    let restored := restoredChildren "x" (historyOf items)
    "c" ∉ live.activeChildren "x" ∧ "c" ∈ restored.activeChildren "x" ∧
      (live.observed "c").terminal = true ∧ (restored.observed "c").terminal = false := by
  simp only [Children.activeChildren, Set.mem_ofPred_eq]
  decide +kernel

end CodexRemote.Collab
