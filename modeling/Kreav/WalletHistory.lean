import Kreav.AmountTexts
import Kreav.Lib.FixedWidth
import Kreav.Lib.Paging
import Kreav.Withdrawals

/-!
# The history of a wallet

`getTransactions` of `backend/src/wallets/wallets.service.ts` merges the settlement rows of an
address with the completed withdrawals of its creator. Each source is read up to
`page * limit * 2` rows, newest first. Both lists are mapped to transactions, sorted together
by the text of their time, and cut to a page.

The texts of the times are in the order of the times (`toISOString_lt`). So a page is the page
of the whole history (`getTransactions_page`), at any page and limit. The total is not :
it counts what was read, and a client that stops there sees everything exactly if neither
source has more than `2 * limit` rows (`historyComplete_iff`).
-/

open FixedWidth

namespace Kreav

/-! ## Times -/

/-- The fields of `toISOString()`, each with the character after it. -/
def isoFields : List (ℕ × Char) :=
  [(4, '-'), (2, '-'), (2, 'T'), (2, ':'), (2, ':'), (2, '.'), (3, 'Z')]

/-- A `DateTime` column, in UTC. The clock that sets it has a year of four digits. -/
structure Timestamp where
  year : ℕ
  month : ℕ
  day : ℕ
  hour : ℕ
  minute : ℕ
  second : ℕ
  millisecond : ℕ
  date : year < 10000 ∧ (1 ≤ month ∧ month ≤ 12) ∧ 1 ≤ day ∧ day ≤ 31
  time : hour < 24 ∧ minute < 60 ∧ second < 60 ∧ millisecond < 1000
  deriving DecidableEq, Repr

namespace Timestamp

variable (s t : Timestamp)

/-- The parts of a time, from the year on. -/
def fields : List ℕ :=
  [t.year, t.month, t.day, t.hour, t.minute, t.second, t.millisecond]

instance : LT Timestamp :=
  ⟨fun s t => s.fields < t.fields⟩

instance : DecidableLT Timestamp :=
  fun s t => inferInstanceAs (Decidable (s.fields < t.fields))

/-- `date.toISOString()`. -/
def toISOString : String :=
  String.ofList (render isoFields t.fields)

theorem fits : Fits isoFields t.fields := by
  obtain ⟨hyear, hmonth, hday⟩ := t.date
  obtain ⟨hhour, hminute, hsecond, hmillisecond⟩ := t.time
  simp only [Fits, isoFields, fields, List.forall₂_cons, List.forall₂_nil_left_iff, and_true]
  omega

/-- ISO-8601 texts are in the order of the times. -/
theorem toISOString_lt : s.toISOString < t.toISOString ↔ s < t := by
  rw [toISOString, toISOString, String.lt_iff, String.toList_ofList,
    String.toList_ofList]
  exact render_lt_render s.fits t.fits

end Timestamp

/-! ## Rows -/

/-- The status of a settlement. -/
inductive SettlementStatus
  | pending
  | completed
  | failed
  deriving DecidableEq, Repr

/-- `recipient_type`, with the values that are reserved. -/
inductive RecipientTypeColumn
  | creator
  | platform
  | affiliate
  | treasury
  deriving DecidableEq, Repr

/-- What is selected of the settlement of a recipient. -/
structure SettlementColumns where
  orderId : String
  txHash : String
  totalAmount : Usd
  status : SettlementStatus
  createdAt : Timestamp
  deriving DecidableEq, Repr

/-- A row of `settlement_recipients` with its settlement. The percentage is in hundredths. -/
structure RecipientRow where
  id : String
  walletAddress : String
  recipientType : RecipientTypeColumn
  role : String
  percentage : ℤ
  amount : Usd
  createdAt : Timestamp
  settlement : SettlementColumns
  deriving DecidableEq, Repr

/-- A row of `withdrawals`, its columns that the history reads. -/
structure WithdrawalRow where
  id : String
  creatorId : String
  amount : Usd
  destinationType : String
  status : WithdrawalStatus
  txHash : Option String
  createdAt : Timestamp
  deriving DecidableEq, Repr

/-- The tables that the history is read from. -/
structure HistoryTables where
  wallets : List Wallet
  recipients : List RecipientRow
  withdrawals : List WithdrawalRow

/-! ## Queries -/

/-- `a` may stand before `b` when the newest come first. -/
def Newer {α : Type} (createdAt : α → Timestamp) (a b : α) : Prop :=
  ¬ createdAt a < createdAt b

instance {α : Type} (createdAt : α → Timestamp) : DecidableRel (Newer createdAt) :=
  fun a b => inferInstanceAs (Decidable (¬ createdAt a < createdAt b))

theorem newer_iff {α : Type} {createdAt : α → Timestamp} {a b : α} :
    Newer createdAt a b ↔ (createdAt b).fields ≤ (createdAt a).fields := by
  change ¬ (createdAt a).fields < (createdAt b).fields ↔ _
  exact not_lt

instance {α : Type} (createdAt : α → Timestamp) : IsTrans α (Newer createdAt) :=
  ⟨fun _ _ _ hab hbc => newer_iff.2 ((newer_iff.1 hbc).trans (newer_iff.1 hab))⟩

instance {α : Type} (createdAt : α → Timestamp) : Std.Total (Newer createdAt) :=
  ⟨fun a b => by simpa only [newer_iff] using le_total _ _⟩

/-- `orderBy: { createdAt: 'desc' }`. Rows of one time stay in the order of the table. -/
def orderByNewest {α : Type} (createdAt : α → Timestamp) (rows : List α) : List α :=
  rows.insertionSort (Newer createdAt)

namespace HistoryTables

variable (db : HistoryTables) (address : String)

/-- The rows of `settlementRecipient.findMany`, before `take`. -/
def settlementRows : List RecipientRow :=
  orderByNewest (·.createdAt) (db.recipients.filter (·.walletAddress == address))

/-- The rows of `withdrawal.findMany`, before `take`, of the creator of the wallet. -/
def withdrawalRows : List WithdrawalRow :=
  match db.wallets.find? (·.walletAddress == address) with
  | some walletRow =>
    orderByNewest (·.createdAt)
      (db.withdrawals.filter fun w => w.creatorId == walletRow.creatorId && w.status == .completed)
  | none => []

end HistoryTables

/-! ## Transactions -/

/-- What a transaction of the history is. -/
inductive TransactionKind
  | settlement
  | withdrawal
  deriving DecidableEq, Repr

/-- Its direction, seen from the wallet. -/
inductive Direction
  | credit
  | debit
  deriving DecidableEq, Repr

/-- A transaction of the history. -/
structure WalletTransaction where
  id : String
  kind : TransactionKind
  direction : Direction
  orderId : String
  txHash : String
  explorerLink : String
  totalAmount : String
  amount : String
  recipientType : String
  role : String
  percentage : String
  destination : String
  status : String
  createdAt : String
  deriving DecidableEq, Repr

/-- The status as it is stored. -/
def SettlementStatus.text : SettlementStatus → String
  | .pending => "PENDING"
  | .completed => "COMPLETED"
  | .failed => "FAILED"

/-- The status as it is stored. -/
def WithdrawalStatus.text : WithdrawalStatus → String
  | .requested => "REQUESTED"
  | .processing => "PROCESSING"
  | .completed => "COMPLETED"
  | .failed => "FAILED"

/-- The type as it is stored. -/
def RecipientTypeColumn.text : RecipientTypeColumn → String
  | .creator => "CREATOR"
  | .platform => "PLATFORM"
  | .affiliate => "AFFILIATE"
  | .treasury => "TREASURY"

/-- `[0-9a-fA-F]`. -/
def isHexDigit (c : Char) : Bool :=
  c.isDigit || ('a' ≤ c && c ≤ 'f') || ('A' ≤ c && c ≤ 'F')

/-- `explorer.txUrl(txHash)`. -/
def txUrl (explorerUrl txHash : String) : String :=
  let isValid := txHash.length == 64 && txHash.toList.all isHexDigit
  explorerUrl ++ "/tx/" ++ if isValid then txHash else "invalid-tx-hash"

/-- A percentage with two decimals. -/
def percentageText (hundredths : ℤ) : String :=
  (Decimals.Decimal.mk hundredths 2).toFixed 2

variable (explorerUrl : String)

/-- A settlement as a transaction. -/
def RecipientRow.transaction (row : RecipientRow) : WalletTransaction where
  id := row.id
  kind := .settlement
  direction := if row.recipientType = .creator then .credit else .debit
  orderId := row.settlement.orderId
  txHash := row.settlement.txHash
  explorerLink := txUrl explorerUrl row.settlement.txHash
  totalAmount := row.settlement.totalAmount.toFixed
  amount := row.amount.toFixed
  recipientType := row.recipientType.text
  role := row.role
  percentage := percentageText row.percentage
  destination := ""
  status := row.settlement.status.text
  createdAt := row.settlement.createdAt.toISOString

/-- A withdrawal as a transaction. -/
def WithdrawalRow.transaction (w : WithdrawalRow) : WalletTransaction where
  id := w.id
  kind := .withdrawal
  direction := .debit
  orderId := ""
  txHash := w.txHash.getD ""
  explorerLink := if w.txHash.getD "" = "" then "" else txUrl explorerUrl (w.txHash.getD "")
  totalAmount := w.amount.toFixed
  amount := w.amount.toFixed
  recipientType := ""
  role := ""
  percentage := ""
  destination := w.destinationType
  status := w.status.text
  createdAt := w.createdAt.toISOString

/-- A page of the history. -/
structure TransactionsPage where
  address : String
  transactions : List WalletTransaction
  page : ℕ
  limit : ℕ
  total : ℕ
  deriving DecidableEq, Repr

/-- The merged list of a page. The sort is stable. -/
def mergedTransactions (db : HistoryTables) (address : String) (boundedTake : ℕ) :
    List WalletTransaction :=
  let settlementTx :=
    ((db.settlementRows address).take boundedTake).map (·.transaction explorerUrl)
  let withdrawalTx :=
    ((db.withdrawalRows address).take boundedTake).map (·.transaction explorerUrl)
  (settlementTx ++ withdrawalTx).insertionSort fun a b => ¬ a.createdAt < b.createdAt

/-- A page of the transactions of a wallet, newest first. -/
def getTransactions (db : HistoryTables) (address : String) (page limit : ℕ) :
    TransactionsPage :=
  let skip := (page - 1) * limit
  let boundedTake := page * limit * 2
  let merged := mergedTransactions explorerUrl db address boundedTake
  { address, page, limit
    transactions := Paging.page skip limit merged
    total := merged.length }

/-! ## Pages of the whole history -/

/-- A row of the history. -/
inductive HistoryRow
  | settlement (row : RecipientRow)
  | withdrawal (w : WithdrawalRow)
  deriving DecidableEq, Repr

namespace HistoryRow

/-- When the row was created. -/
def createdAt : HistoryRow → Timestamp
  | .settlement row => row.createdAt
  | .withdrawal w => w.createdAt

/-- The row as a transaction. -/
def transaction : HistoryRow → WalletTransaction
  | .settlement row => row.transaction explorerUrl
  | .withdrawal w => w.transaction explorerUrl

end HistoryRow

namespace HistoryTables

variable (db : HistoryTables) (address : String)

/-- All settlement rows and completed withdrawals of a wallet, newest first. -/
def history : List HistoryRow :=
  orderByNewest HistoryRow.createdAt
    ((db.settlementRows address).map .settlement ++ (db.withdrawalRows address).map .withdrawal)

theorem pairwise_settlementRows : (db.settlementRows address).Pairwise (Newer (·.createdAt)) :=
  List.pairwise_insertionSort _ _

theorem pairwise_withdrawalRows :
    (db.withdrawalRows address).Pairwise (Newer (·.createdAt)) := by
  unfold withdrawalRows
  split
  · exact List.pairwise_insertionSort _ _
  · exact List.Pairwise.nil

theorem mem_recipients_of_mem_settlementRows {row : RecipientRow}
    (h : row ∈ db.settlementRows address) : row ∈ db.recipients :=
  (List.mem_filter.1 ((List.mem_insertionSort _).1 h)).1

theorem length_history : (db.history address).length =
    (db.settlementRows address).length + (db.withdrawalRows address).length := by
  rw [history, orderByNewest, List.length_insertionSort, List.length_append, List.length_map,
    List.length_map]

/-- The rows that a page reads, newest first. -/
def readRows (boundedTake : ℕ) : List HistoryRow :=
  orderByNewest HistoryRow.createdAt
    (((db.settlementRows address).map .settlement).take boundedTake ++
      ((db.withdrawalRows address).map .withdrawal).take boundedTake)

/-- A page of what was read is one of the history, if the sources were read that far. -/
theorem page_readRows {skip limit boundedTake : ℕ} (h : skip + limit ≤ boundedTake) :
    Paging.page skip limit (db.readRows address boundedTake) =
      Paging.page skip limit (db.history address) := by
  have hs : ((db.settlementRows address).map HistoryRow.settlement).Pairwise
      (Newer HistoryRow.createdAt) := List.pairwise_map.2 (db.pairwise_settlementRows address)
  have hw : ((db.withdrawalRows address).map HistoryRow.withdrawal).Pairwise
      (Newer HistoryRow.createdAt) := List.pairwise_map.2 (db.pairwise_withdrawalRows address)
  exact Paging.page_insertionSort_take hs hw h

end HistoryTables

/-- Recipients carry the time of their settlement. -/
abbrev HistoryTables.SameTimes (db : HistoryTables) : Prop :=
  ∀ row ∈ db.recipients, row.createdAt = row.settlement.createdAt

theorem createdAt_transaction {db : HistoryTables} (h : db.SameTimes) {address : String}
    {boundedTake : ℕ} {row : HistoryRow} (hrow : row ∈ ((db.settlementRows address).map
      .settlement).take boundedTake ++ ((db.withdrawalRows address).map .withdrawal).take
        boundedTake) :
    (row.transaction explorerUrl).createdAt = row.createdAt.toISOString := by
  rcases List.mem_append.1 hrow with hmem | hmem
  · obtain ⟨r, hr, rfl⟩ := List.mem_map.1 (List.mem_of_mem_take hmem)
    have htime := h r (db.mem_recipients_of_mem_settlementRows address hr)
    exact congrArg Timestamp.toISOString htime.symm
  · obtain ⟨w, -, rfl⟩ := List.mem_map.1 (List.mem_of_mem_take hmem)
    rfl

/-- The sort by texts is one by times. -/
theorem mergedTransactions_eq {db : HistoryTables} (h : db.SameTimes) (address : String)
    (boundedTake : ℕ) : mergedTransactions explorerUrl db address boundedTake =
      (db.readRows address boundedTake).map (·.transaction explorerUrl) := by
  rw [HistoryTables.readRows, orderByNewest, List.map_insertionSort _
    (fun a b : WalletTransaction => ¬ a.createdAt < b.createdAt)]
  · rw [List.map_append, ← List.map_take, ← List.map_take, List.map_map, List.map_map]
    rfl
  · intro a ha b hb
    rw [createdAt_transaction explorerUrl h ha, createdAt_transaction explorerUrl h hb,
      Timestamp.toISOString_lt]
    exact Iff.rfl

/-- Any page is the page of the whole history. -/
theorem getTransactions_page (db : HistoryTables) (address : String) (page limit : ℕ)
    (htimes : db.SameTimes) (hpage : 1 ≤ page) :
    (getTransactions explorerUrl db address page limit).transactions =
      Paging.page ((page - 1) * limit) limit
        ((db.history address).map (·.transaction explorerUrl)) := by
  have hread : (page - 1) * limit + limit ≤ page * limit * 2 := by
    rw [← Nat.succ_mul, Nat.succ_eq_add_one, Nat.sub_add_cancel hpage]
    omega
  rw [getTransactions, mergedTransactions_eq explorerUrl htimes]
  simp only [Paging.page_map]
  rw [db.page_readRows address hread]

/-! ## A client that reads all pages -/

theorem total_getTransactions (db : HistoryTables) (address : String) (page limit : ℕ) :
    (getTransactions explorerUrl db address page limit).total =
      min (page * limit * 2) (db.settlementRows address).length +
        min (page * limit * 2) (db.withdrawalRows address).length := by
  simp only [getTransactions, mergedTransactions]
  rw [List.length_insertionSort, List.length_append, List.length_map, List.length_map,
    List.length_take, List.length_take]

/-- Read page 1 for its total, and then the pages that hold so many transactions. -/
def readHistory (db : HistoryTables) (address : String) (limit : ℕ) : List WalletTransaction :=
  let total := (getTransactions explorerUrl db address 1 limit).total
  (List.range ((total + limit - 1) / limit)).flatMap fun p =>
    (getTransactions explorerUrl db address (p + 1) limit).transactions

/-- The client receives each row once, and the total is their number on every page. -/
def HistoryComplete (db : HistoryTables) (address : String) (limit : ℕ) : Prop :=
  (readHistory explorerUrl db address limit).Perm
      ((db.history address).map (·.transaction explorerUrl)) ∧
    ∀ page, 1 ≤ page →
      (getTransactions explorerUrl db address page limit).total = (db.history address).length

theorem two_mul_le_boundedTake (limit : ℕ) {page : ℕ} (hpage : 1 ≤ page) :
    2 * limit ≤ page * limit * 2 := by
  rw [Nat.mul_comm 2]
  exact Nat.mul_le_mul_right 2 (Nat.le_mul_of_pos_left limit hpage)

/-- Sources that one page exhausts are read whole by every page. -/
theorem mergedTransactions_of_le {db : HistoryTables} {address : String} {m n : ℕ}
    (hs : (db.settlementRows address).length ≤ m) (hw : (db.withdrawalRows address).length ≤ m)
    (hn : m ≤ n) : mergedTransactions explorerUrl db address n =
      mergedTransactions explorerUrl db address m := by
  simp only [mergedTransactions]
  rw [List.take_of_length_le hs, List.take_of_length_le hw, List.take_of_length_le (hs.trans hn),
    List.take_of_length_le (hw.trans hn)]

theorem mergedTransactions_perm {db : HistoryTables} {address : String} {n : ℕ}
    (hs : (db.settlementRows address).length ≤ n) (hw : (db.withdrawalRows address).length ≤ n) :
    (mergedTransactions explorerUrl db address n).Perm
      ((db.history address).map (·.transaction explorerUrl)) := by
  have hall : ((db.history address).map (·.transaction explorerUrl)).Perm
      ((db.settlementRows address).map (·.transaction explorerUrl) ++
        (db.withdrawalRows address).map (·.transaction explorerUrl)) := by
    have hperm := (List.perm_insertionSort (Newer HistoryRow.createdAt)
      ((db.settlementRows address).map .settlement ++
        (db.withdrawalRows address).map .withdrawal)).map (·.transaction explorerUrl)
    rwa [List.map_append, List.map_map, List.map_map] at hperm
  simp only [mergedTransactions]
  rw [List.take_of_length_le hs, List.take_of_length_le hw]
  exact (List.perm_insertionSort _ _).trans hall.symm

theorem readHistory_of_le {db : HistoryTables} {address : String} {limit : ℕ}
    (hs : (db.settlementRows address).length ≤ 2 * limit)
    (hw : (db.withdrawalRows address).length ≤ 2 * limit) :
    readHistory explorerUrl db address limit =
      mergedTransactions explorerUrl db address (2 * limit) := by
  have hpages (p : ℕ) : (getTransactions explorerUrl db address (p + 1) limit).transactions =
      Paging.page (p * limit) limit (mergedTransactions explorerUrl db address (2 * limit)) := by
    rw [getTransactions, mergedTransactions_of_le explorerUrl hs hw
      (two_mul_le_boundedTake limit (Nat.succ_pos p)), Nat.add_sub_cancel]
  have htotal : (getTransactions explorerUrl db address 1 limit).total =
      (mergedTransactions explorerUrl db address (2 * limit)).length := by
    rw [getTransactions, Nat.one_mul, Nat.mul_comm limit 2]
  simp only [readHistory, hpages]
  rw [Paging.flatMap_page, htotal]
  refine List.take_of_length_le ?_
  generalize hn : (mergedTransactions explorerUrl db address (2 * limit)).length = n
  rcases Nat.eq_zero_or_pos limit with rfl | hlimit
  · rw [(mergedTransactions_perm explorerUrl hs hw).length_eq, List.length_map,
      db.length_history] at hn
    omega
  · have hdiv := Nat.div_add_mod (n + limit - 1) limit
    have hmod := Nat.mod_lt (n + limit - 1) hlimit
    rw [Nat.mul_comm limit] at hdiv
    omega

/-- What a client receives is a prefix of the history : the pages that the total of page 1 needs. -/
theorem readHistory_eq {db : HistoryTables} (h : db.SameTimes) (address : String) (limit : ℕ) :
    readHistory explorerUrl db address limit =
      ((db.history address).map (·.transaction explorerUrl)).take
        (((getTransactions explorerUrl db address 1 limit).total + limit - 1) / limit * limit) := by
  have hpages (p : ℕ) : (getTransactions explorerUrl db address (p + 1) limit).transactions =
      Paging.page (p * limit) limit ((db.history address).map (·.transaction explorerUrl)) := by
    have hread : p * limit + limit ≤ (p + 1) * limit * 2 := by
      rw [← Nat.succ_mul]
      exact Nat.le_mul_of_pos_right _ Nat.two_pos
    rw [getTransactions, mergedTransactions_eq explorerUrl h]
    simp only [Paging.page_map]
    rw [Nat.add_sub_cancel, db.page_readRows address hread]
  simp only [readHistory, hpages]
  exact Paging.flatMap_page ..

/-- A client sees the whole history exactly if page 1 reads both sources to their ends. -/
theorem historyComplete_iff (db : HistoryTables) (address : String) (limit : ℕ) :
    HistoryComplete explorerUrl db address limit ↔
      (db.settlementRows address).length ≤ 2 * limit ∧
        (db.withdrawalRows address).length ≤ 2 * limit := by
  constructor
  · rintro ⟨-, htotal⟩
    have hfirst := htotal 1 le_rfl
    rw [total_getTransactions, db.length_history] at hfirst
    omega
  · rintro ⟨hs, hw⟩
    refine ⟨?_, fun page hpage => ?_⟩
    · rw [readHistory_of_le explorerUrl hs hw]
      exact mergedTransactions_perm explorerUrl hs hw
    · have hread := two_mul_le_boundedTake limit hpage
      rw [total_getTransactions, db.length_history, min_eq_right (hs.trans hread),
        min_eq_right (hw.trans hread)]

/-- A settlement row of a minute's given second. -/
def demoRow (id : String) (second : ℕ) (h : second < 60) : RecipientRow :=
  let createdAt : Timestamp :=
    ⟨2026, 6, 29, 12, 0, second, 0, by omega, by omega⟩
  ⟨id, "GCREATOR", .creator, "Author", 10000, demoEarned, createdAt,
    ⟨id, "", demoProduct.priceUsd, .completed, createdAt⟩⟩

/-- Three settlement rows of one wallet, a second apart. -/
def demoHistory : HistoryTables where
  wallets := []
  recipients := [demoRow "r-1" 1 (by omega), demoRow "r-2" 2 (by omega), demoRow "r-3" 3 (by omega)]
  withdrawals := []

/-- Page 2 of size 1 is the middle row. -/
theorem getTransactions_page_demo :
    (getTransactions "https://stellar.expert/explorer/testnet" demoHistory "GCREATOR" 2
      1).transactions = Paging.page 1 1 ((demoHistory.history "GCREATOR").map
        (·.transaction "https://stellar.expert/explorer/testnet")) :=
  getTransactions_page _ demoHistory "GCREATOR" 2 1 (by decide) (by decide)

/-- Page 1 of size 1 reads two of three rows. -/
theorem exists_not_historyComplete : ¬ ∀ (explorerUrl : String) (db : HistoryTables)
    (address : String) (limit : ℕ), 1 ≤ limit → HistoryComplete explorerUrl db address limit := by
  intro hall
  have htotal := (hall "https://stellar.expert/explorer/testnet" demoHistory "GCREATOR" 1
    (by decide)).2 1 (by decide)
  rw [total_getTransactions, HistoryTables.length_history] at htotal
  exact absurd htotal (by decide)

end Kreav
