/-!
The words that a SmartC program knows without a declaration of its own, and the bounds that the
language and the form of a description set.
-/

namespace SmartContract

def languageId : String := "smartc-scd@0.1.0"

namespace Limit

def auxiliaryVariables : Nat := 10

def optimizationLevel : Nat := 3

/-- The most pages of the code stack, and of the user stack. -/
def stackPages : Nat := 10

def entries : Nat := 10

/-- The words that the dispatch loop reads from a message. -/
def messageWords : Nat := 4

/-- The most arguments of a method: the first word of a message is the code of the method. -/
def arguments : Nat := messageWords - 1

/-- The most octets of a text constant, which the compiler packs into one word. -/
def literalOctets : Nat := 8

/-- The most octets of an input, unless the environment sets another bound. -/
def inputOctets : Nat := 1024 * 1024

end Limit

namespace Vocabulary

/-- The keywords of SmartC, and those of C that it refuses. -/
def keywords : List String :=
  ["asm", "break", "case", "const", "continue", "default", "do", "else", "exit", "fixed", "for",
   "goto", "halt", "if", "inline", "long", "register", "return", "sizeof", "sleep", "struct",
   "switch", "void", "while", "auto", "char", "double", "enum", "extern", "float", "int", "short",
   "signed", "static", "typedef", "union", "unsigned", "volatile"]

/-- The name of the variable that holds the transaction being handled. -/
def currentTransaction : String := "currentTx"

def transactionTag : String := "TX"

def skeletonNames : List String := ["main", currentTransaction]

/-- The built-in functions, by their subject: transactions, the chain, accounts and contracts,
sending, assets, maps, and the rest. -/
def builtinFunctions : List String :=
  ["getNextTx", "getNextTxFromBlockheight", "getBlockheight", "getAmount", "getAmountFx",
   "getSender", "getType", "readMessage", "readShortMessage", "readAssets", "getQuantity",
   "getCurrentBlockheight", "getWeakRandomNumber", "getPrevBlockHash", "getPrevBlockTimestamp",
   "getCreator", "getCreatorOf", "getCodeHashOf", "getActivationOf", "getCurrentBalance",
   "getCurrentBalanceFx", "getAccountBalance", "getAssetBalance", "getAssetBalanceFx",
   "getAssetCirculating", "getAssetHoldersCount",
   "sendAmount", "sendAmountFx", "sendBalance", "sendQuantity", "sendQuantityAndAmount",
   "sendQuantityAndAmountFx", "sendMessage", "sendAmountAndMessage", "sendAmountAndMessageFx",
   "sendShortMessage",
   "issueAsset", "mintAsset", "distributeToHolders", "distributeToHoldersFx",
   "getMapValue", "getMapValueFx", "getExtMapValue", "getExtMapValueFx", "setMapValue",
   "setMapValueFx",
   "checkSignature", "memcopy", "bcftol", "bcltof", "mdv", "pow", "powf"]

def isReserved (name : String) : Bool :=
  keywords.contains name || skeletonNames.contains name || builtinFunctions.contains name

end Vocabulary

end SmartContract
