import Atools.Calls
import Atools.ConfigFile
import Atools.ConfigReading
import Atools.Interpreters
import Atools.Programs
import Atools.Targets
