import EventWorker.Failure

/-!
# The catalogue of codes

Codes 500 to 599 belong to the store, 800 to 849 to validation and the worker's
own checks, 199 and 24xxx to start-up, provider lifecycle and sealing, 21xxx to
the client side of sealing.
-/

namespace EventWorker.Code

/-! ## The store -/

def userNotFound : Code := ⟨503, "User not found"⟩

def sessionNotCreated : Code := ⟨504, "Session not created"⟩

def encryptionNotCreated : Code := ⟨505, "Encrypted session not created"⟩

def sessionNotFound : Code := ⟨514, "Session not found"⟩

def sessionToken : Code := ⟨523, "This session is not valid for this token"⟩

def sessionLookup : Code := ⟨528, "Error in getting the all the sessions of this user."⟩

/-! ## Requests -/

def cipherSuite : Code := ⟨802, "Cipher_suite not valid"⟩

def keyLength : Code := ⟨803, "Length of key not valid"⟩

def eventNotFound : Code := ⟨810, "Event not found"⟩

def cipherSuiteQuery : Code := ⟨815, "Error in processing cipher_suite_query"⟩

def server : Code := ⟨816, "Server error"⟩

def sessionExpired : Code := ⟨817, "Session expired"⟩

def processing : Code := ⟨818, "An error occurred while processing your request"⟩

def processingGeneric : Code := ⟨819, "An error occurred while processing a request"⟩

def generic : Code := ⟨820, "An error has occurred"⟩

/-! ## Validation -/

def notJson : Code := ⟨821, "Error in converting the received event to JSON"⟩

def sessionMissing : Code := ⟨822, "Event missing 'session' field"⟩

def labelMissing : Code := ⟨823, "Event missing 'event' field"⟩

def unrecognizedEvent : Code := ⟨824, "Unrecognized input event"⟩

def authenticationRequired : Code := ⟨825, "Authentication required"⟩

def sessionRequired : Code := ⟨826, "Session required"⟩

def tokenNotHex : Code := ⟨827, "The token can contain only hex chars"⟩

def sessionNotHex : Code := ⟨828, "The session can contain only hex chars"⟩

def paramsRequired : Code := ⟨829, "Event missing 'params' field."⟩

def sessionFormat : Code := ⟨840, "The session format is not valid"⟩

/-! ## Start-up -/

def invalidFragments : Code := ⟨199, "Invalid macros for pipeline. Please check that there is no circular dependency."⟩

def configParse : Code := ⟨24102, "Error in parsing the configuration file"⟩

def configInput : Code := ⟨24110, "Missing 'inputProvider' in configuration"⟩

def configOutput : Code := ⟨24111, "Missing 'outputProvider' in configuration"⟩

def configIntegrity : Code := ⟨24112, "Missing 'integrityProvider' in configuration"⟩

def configEncoding : Code := ⟨24113, "Missing 'encodingProvider' in configuration"⟩

def configDatabase : Code := ⟨24114, "Missing 'databaseProvider' in configuration"⟩

def configLedger : Code := ⟨24115, "Missing 'blockchainWorkerProvider' in configuration"⟩

def configPipelines : Code := ⟨24116, "Missing 'pipelines' in configuration"⟩

def configLogging : Code := ⟨24117, "Missing 'loggingProvider' in configuration"⟩

def configCrypto : Code := ⟨24118, "Missing 'cryptoProviders' in configuration"⟩

/-! ## Loading and setting up -/

def loadInput : Code := ⟨24201, "Error in loading the input provider."⟩

def loadOutput : Code := ⟨24202, "Error in loading the output provider."⟩

def setUpInput : Code := ⟨24203, "Error in initializing the input provider."⟩

def setUpOutput : Code := ⟨24204, "Error in initializing the output provider."⟩

def loadDatabase : Code := ⟨24205, "Error in loading the persistence provider."⟩

def setUpDatabase : Code := ⟨24206, "Error in initializing the persistence provider."⟩

def loadIntegrity : Code := ⟨24207, "Error in loading the integrity provider."⟩

def loadEncoding : Code := ⟨24208, "Error in loading the encoding provider."⟩

def loadLedger : Code := ⟨24209, "Error in loading the blockchain provider."⟩

def setUpLedger : Code := ⟨24210, "Error in initializing the blockchain provider."⟩

def loadLogger : Code := ⟨24211, "Error in loading Logger provider"⟩

def setUpLogger : Code := ⟨24212, "Error in initializing Logger provider."⟩

def loadCrypto : Code := ⟨24213, "Error in loading the encryption provider."⟩

def setUpCrypto : Code := ⟨24214, "Error in initializing the encryption provider."⟩

def loadProcessor : Code := ⟨24215, "Error in loading processor."⟩

def setUpProcessor : Code := ⟨24216, "Error in initializing processor."⟩

/-! ## Connecting -/

def connectOutput : Code := ⟨24301, "Error in opening the output provider."⟩

def connectInput : Code := ⟨24302, "Error in opening the input provider."⟩

def connectLogger : Code := ⟨24304, "Error in opening Logger provider."⟩

def connectDatabase : Code := ⟨24305, "Error in opening the persistence provider."⟩

def connectLedger : Code := ⟨24306, "Error in opening the blockchain provider."⟩

def connectProcessor : Code := ⟨24307, "Error in opening processor."⟩

def connectCrypto : Code := ⟨24308, "Error in opening the encryption provider."⟩

/-! ## Disconnecting -/

def disconnectInput : Code := ⟨24501, "Error in closing the input provider."⟩

def disconnectOutput : Code := ⟨24502, "Error in closing the output provider."⟩

def disconnectDatabase : Code := ⟨24503, "Error in closing the persistence provider."⟩

def disconnectProcessor : Code := ⟨24504, "Error in closing processor."⟩

def disconnectLedger : Code := ⟨24505, "Error in closing the blockchain provider."⟩

/-! ## Sealing -/

def integrityUnavailable : Code := ⟨24765, "MLE Error: integrity function not available"⟩

def encapsulation : Code := ⟨24766, "An exception occurred while encapsulating DOP Event in MLE"⟩

def integrityMismatch : Code := ⟨21268, "MLE Error: the recovered checksum does not match the one received."⟩

/-! ## Replies -/

/-- Carried by the reply to a successful start of a session. -/
def newSession : Code := ⟨14, "New session created"⟩

/-! ## All of them -/

/-- Every entry, in the order above. -/
def all : List Code :=
  [userNotFound, sessionNotCreated, encryptionNotCreated, sessionNotFound, sessionToken,
    sessionLookup, cipherSuite, keyLength, eventNotFound, cipherSuiteQuery, server,
    sessionExpired, processing, processingGeneric, generic, notJson, sessionMissing,
    labelMissing, unrecognizedEvent, authenticationRequired, sessionRequired, tokenNotHex,
    sessionNotHex, paramsRequired, sessionFormat, invalidFragments, configParse, configInput,
    configOutput, configIntegrity, configEncoding, configDatabase, configLedger, configPipelines,
    configLogging, configCrypto, loadInput, loadOutput, setUpInput, setUpOutput, loadDatabase,
    setUpDatabase, loadIntegrity, loadEncoding, loadLedger, setUpLedger, loadLogger, setUpLogger,
    loadCrypto, setUpCrypto, loadProcessor, setUpProcessor, connectOutput, connectInput,
    connectLogger, connectDatabase, connectLedger, connectProcessor, connectCrypto,
    disconnectInput, disconnectOutput, disconnectDatabase, disconnectProcessor, disconnectLedger,
    integrityUnavailable, encapsulation, integrityMismatch, newSession]

/-! ## Log codes of the dispatcher -/

/-- A new inbound event was received. -/
def logNewEvent : Nat := 24601

/-- A pipeline was found for the label. -/
def logLookup : Nat := 24604

/-- A processor handled the event. -/
def logHandled : Nat := 24605

/-- An event is about to be written. -/
def logToSend : Nat := 24606

end EventWorker.Code
