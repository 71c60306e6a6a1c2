import Rgnr8.Lib.OrderedMap

/-! The kernel's data: money in minor units, accounts, posting commands, entries and the errors a
posting can end with. -/

namespace Rgnr8.Kernel
open Lib

abbrev TenantId := String
abbrev AccountId := String
abbrev EntryId := String
abbrev IdempotencyKey := String
abbrev PeriodKey := String

structure Currency where
  code : String
  scale : Nat
  deriving DecidableEq

def usd : Currency := ⟨"USD", 2⟩

structure Money where
  minorUnits : Int
  currency : Currency
  deriving DecidableEq

inductive AccountType where
  | asset | liability | equity | revenue | expense
  deriving DecidableEq

def AccountType.text : AccountType → String
  | asset => "ASSET"
  | liability => "LIABILITY"
  | equity => "EQUITY"
  | revenue => "REVENUE"
  | expense => "EXPENSE"

inductive AccountSubtype where
  | bank | accountsReceivable | undepositedFunds | inventory | otherCurrentAsset | fixedAsset
  | accumulatedDepreciation | otherAsset
  | accountsPayable | creditCard | salesTaxPayable | otherCurrentLiability | longTermLiability
  | equity | retainedEarnings
  | income | otherIncome
  | expense | costOfGoodsSold | otherExpense
  deriving DecidableEq

def AccountSubtype.text : AccountSubtype → String
  | bank => "BANK"
  | accountsReceivable => "ACCOUNTS_RECEIVABLE"
  | undepositedFunds => "UNDEPOSITED_FUNDS"
  | inventory => "INVENTORY"
  | otherCurrentAsset => "OTHER_CURRENT_ASSET"
  | fixedAsset => "FIXED_ASSET"
  | accumulatedDepreciation => "ACCUMULATED_DEPRECIATION"
  | otherAsset => "OTHER_ASSET"
  | accountsPayable => "ACCOUNTS_PAYABLE"
  | creditCard => "CREDIT_CARD"
  | salesTaxPayable => "SALES_TAX_PAYABLE"
  | otherCurrentLiability => "OTHER_CURRENT_LIABILITY"
  | longTermLiability => "LONG_TERM_LIABILITY"
  | equity => "EQUITY"
  | retainedEarnings => "RETAINED_EARNINGS"
  | income => "INCOME"
  | otherIncome => "OTHER_INCOME"
  | expense => "EXPENSE"
  | costOfGoodsSold => "COST_OF_GOODS_SOLD"
  | otherExpense => "OTHER_EXPENSE"

def accountTypeOfSubtype : AccountSubtype → AccountType
  | .bank | .accountsReceivable | .undepositedFunds | .inventory | .otherCurrentAsset
  | .fixedAsset | .accumulatedDepreciation | .otherAsset => .asset
  | .accountsPayable | .creditCard | .salesTaxPayable | .otherCurrentLiability
  | .longTermLiability => .liability
  | .equity | .retainedEarnings => .equity
  | .income | .otherIncome => .revenue
  | .expense | .costOfGoodsSold | .otherExpense => .expense

inductive AccountOrigin where
  | rgnr8 | quickbooks
  deriving DecidableEq

structure Account where
  id : AccountId
  code : String
  name : String
  type : AccountType
  currency : Currency
  parentId : Option AccountId
  subtype : Option AccountSubtype
  active : Option Bool
  origin : Option AccountOrigin
  deriving DecidableEq

inductive EntrySide where
  | debit | credit
  deriving DecidableEq

namespace EntrySide

def text : EntrySide → String
  | debit => "DEBIT"
  | credit => "CREDIT"

def swap : EntrySide → EntrySide
  | debit => credit
  | credit => debit

def signed : EntrySide → Int → Int
  | debit, n => n
  | credit, n => -n

variable (side : EntrySide)

@[simp] theorem signed_swap (n : Int) : side.swap.signed n = -side.signed n := by
  cases side
  · rfl
  · exact (Int.neg_neg n).symm

@[simp] theorem signed_signed (n : Int) : side.signed (side.signed n) = n := by
  cases side
  · rfl
  · exact Int.neg_neg n

@[simp] theorem signed_zero : side.signed 0 = 0 := by
  cases side <;> rfl

theorem signed_add (m n : Int) : side.signed (m + n) = side.signed m + side.signed n := by
  cases side
  · rfl
  · exact Int.neg_add

end EntrySide

structure Provenance where
  sourceSystem : String
  sourceObject : String
  sourceVersion : String
  effectiveDate : String
  postedDate : String
  ingestedAt : String
  normalizationVersion : String
  mappingVersion : String
  deriving DecidableEq

abbrev Dimensions := OrderedMap String String

structure PostedLine where
  accountId : AccountId
  side : EntrySide
  amount : Money
  memo : Option String
  dimensions : Option Dimensions
  deriving DecidableEq

abbrev JournalLineInput := PostedLine

structure PostCommand where
  tenantId : TenantId
  idempotencyKey : IdempotencyKey
  periodKey : PeriodKey
  currency : Currency
  entryDate : String
  lines : List JournalLineInput
  provenance : Provenance
  memo : Option String

inductive EntryStatus where
  | posted | reversal
  deriving DecidableEq

structure DraftEntry where
  tenantId : TenantId
  idempotencyKey : IdempotencyKey
  periodKey : PeriodKey
  currency : Currency
  entryDate : String
  status : EntryStatus
  lines : List PostedLine
  provenance : Provenance
  memo : Option String
  reversalOf : Option EntryId
  postedAt : String
  deriving DecidableEq

structure PostedEntry extends DraftEntry where
  id : EntryId
  sequence : Nat
  deriving DecidableEq

inductive LedgerError where
  | emptyEntry
  | unbalancedEntry (debitMinor creditMinor : Int)
  | nonPositiveAmount (accountId : AccountId)
  | unknownAccount (accountId : AccountId)
  | inactiveAccount (accountId : AccountId) (code : String)
  | lineCurrency (accountId : AccountId) (message : String)
  | periodClosed (periodKey : PeriodKey)
  | duplicateIdempotencyKey (key : IdempotencyKey)
  | unknownEntry (id : EntryId)
  deriving DecidableEq

def LedgerError.message : LedgerError → String
  | emptyEntry => "A journal entry must have at least two lines"
  | unbalancedEntry d c =>
    s!"Journal entry is unbalanced: debits {d} != credits {c} (minor units)"
  | nonPositiveAmount a => s!"Journal line for account {a} must have a positive amount"
  | unknownAccount a => s!"Unknown account: {a}"
  | inactiveAccount _ code => s!"Account {code} is inactive and cannot receive postings"
  | lineCurrency _ message => message
  | periodClosed p => s!"Accounting period {p} is closed; postings are not permitted"
  | duplicateIdempotencyKey k =>
    s!"Idempotency key already used with a different command payload: {k}"
  | unknownEntry id => s!"Unknown entry: {id}"

end Rgnr8.Kernel
