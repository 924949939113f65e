import Kiflash.BlankCheck
import Kiflash.Concurrent
import Kiflash.Descriptors
import Kiflash.Dump
import Kiflash.Execute
import Kiflash.Failures
import Kiflash.Faithful
import Kiflash.Menu.Verify
import Kiflash.Milestones
import Kiflash.Nor.AddressMode
import Kiflash.Nor.Conformance
import Kiflash.Nor.Dies
import Kiflash.Nor.Erasing
import Kiflash.Nor.Flashing
import Kiflash.Nor.Healthy
import Kiflash.Nor.Isolation
import Kiflash.Nor.MissingFile
import Kiflash.Nor.Outages
import Kiflash.Nor.PageWrite
import Kiflash.Nor.Reimage
import Kiflash.PageCount
import Kiflash.Spi.Exchange
import Kiflash.Spi.Reload
import Kiflash.Spi.Requests
import Kiflash.Spi.Retry
import Kiflash.Spi.Sweep
import Kiflash.Spi.Timeout
import Kiflash.Spi.Windows
